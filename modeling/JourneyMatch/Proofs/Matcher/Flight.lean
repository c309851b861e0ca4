import Mathlib.Algebra.GroupWithZero.Nat
import Mathlib.Logic.Function.Basic
import JourneyMatch.Proofs.KeyedLock
import JourneyMatch.Proofs.Matcher.Sequence

/-
  This file defines calls of the matcher that are in flight
  at once, and every order in which their steps can be made:
  a call passes the gate, asks for the lock of its key, runs
  its critical section once it has the lock, releases the
  lock, and emits its notifications. It says that the calls
  keep out of each other's way, and that some call can always
  go on.

  Key definitions include:
    * `Call`
    * `Phase`
    * `Flight`
    * `Flight.Step`
    * `Flight.Reachable`
    * `Flight.Locked`
    * `Flight.work`

  Main statements:
    * `Flight.Step.locked`
    * `Flight.Locked.exclusive`
    * `Flight.Locked.exists_step`
    * `Flight.Step.work_lt`
-/

namespace JourneyMatch

------------------------------------------------------------
-- Calls
------------------------------------------------------------

/- A call, with the handle by which it asks for locks. -/
structure Call where
  handle : String
  event : Event

/-
  How far a call has come: it has been made, it has passed
  the gate with its key, it has asked for the lock of the
  key, it has run its critical section, it emits what is left
  of its notifications, or it has ended.
-/
inductive Phase where
  | called
  | passed (key : String)
  | asked (key : String)
  | ran (reply : Reply)
  | telling (reply : Reply) (left : List Notification)
  | done (reply : Reply)

namespace Phase

/- What the call replies, once that is known. -/
def reply? : Phase → Option Reply
  | .called => none
  | .passed _ => none
  | .asked _ => none
  | .ran reply => some reply
  | .telling reply _ => some reply
  | .done reply => some reply

/- The notifications that are still to be emitted. -/
def untold : Phase → List Notification
  | .called => []
  | .passed _ => []
  | .asked _ => []
  | .ran reply => reply.notifications
  | .telling _ left => left
  | .done _ => []

/- Whether the call has ended. -/
def Ended
    (p : Phase) : Prop :=
  ∃ reply, p = .done reply

/-
  What a call with an event claims in each of its phases:
  nothing before it asks and after it has released, and the
  lock of its key in between.
-/
def Stands
    (e : Event) :
    Phase → Option Claim → Prop
  | .called, none => True
  | .passed key, none => e.key = .ok key
  | .asked key, some d => e.key = .ok key ∧ d.key = key
  | .ran _, some d => e.key = .ok d.key ∧ d.held = true
  | .telling _ _, none => True
  | .done _, none => True
  | _, _ => False

/- How many steps are left for the call at most. -/
def work : Phase → Nat
  | .called => 7
  | .passed _ => 6
  | .asked _ => 5
  | .ran reply => reply.notifications.length + 2
  | .telling _ left => left.length + 1
  | .done _ => 0

end Phase

/- The gate: a stopped matcher turns every event away. -/
def Matcher.gate
    (e : Event)
    (m : Matcher) : Except RejectReason String :=
  if m.stopped then .error .stopped else e.key

/- An event that is turned away at the gate. -/
theorem Matcher.handle_of_gate_error
    {m : Matcher}
    {e : Event}
    {reason : RejectReason}
    (now : Readings)
    (hGate : m.gate e = .error reason) :
    m.handle now e = (.rejected reason, m) := by
  unfold gate at hGate
  unfold handle
  split at hGate
  · rename_i hStopped
    cases hGate
    rw [if_pos hStopped]
  · rename_i hRuns
    rw [if_neg hRuns, hGate]

/- A running matcher lets an event pass with its key. -/
theorem Matcher.gate_of_running
    {m : Matcher}
    (e : Event)
    (hRuns : m.stopped = false) :
    m.gate e = e.key := by
  simp [gate, hRuns]

------------------------------------------------------------
-- Calls in flight
------------------------------------------------------------

/-
  The matcher, its lock, how far each call has come by its
  handle, the calls in the order in which they ran or were
  turned away, and what has been emitted.
-/
structure Flight where
  matcher : Matcher
  lock : KeyedLock
  phase : String → Phase
  entered : List Call
  emitted : List Notification

namespace Flight

/- The beginning, when no call has made a step. -/
def begin
    (m : Matcher)
    (l : KeyedLock) : Flight :=
  ⟨m, l, fun _ => .called, [], []⟩

/- A call that has come further. -/
def advance
    (c : Call)
    (p : Phase)
    (f : Flight) : Flight :=
  { f with phase := Function.update f.phase c.handle p }

/- The steps that calls can make. -/
inductive Step
    (now : Readings)
    (calls : List Call) : Flight → Flight → Prop where
  | reject
      {f : Flight}
      {c : Call}
      {reason : RejectReason}
      (hCall : c ∈ calls)
      (hPhase : f.phase c.handle = .called)
      (hGate : f.matcher.gate c.event = .error reason) :
      Step now calls f
        { f.advance c (.done (.rejected reason)) with
          entered := f.entered ++ [c] }
  | pass
      {f : Flight}
      {c : Call}
      {key : String}
      (hCall : c ∈ calls)
      (hPhase : f.phase c.handle = .called)
      (hGate : f.matcher.gate c.event = .ok key) :
      Step now calls f (f.advance c (.passed key))
  | ask
      {f : Flight}
      {c : Call}
      {key : String}
      (hCall : c ∈ calls)
      (hPhase : f.phase c.handle = .passed key) :
      Step now calls f
        { f.advance c (.asked key) with
          lock := f.lock.lock c.handle key }
  | enter
      {f : Flight}
      {c : Call}
      {key : String}
      (hCall : c ∈ calls)
      (hPhase : f.phase c.handle = .asked key)
      (hHeld :
        (f.lock.poll c.handle).standing c.handle = .held) :
      Step now calls f
        { f.advance c
            (.ran (f.matcher.meet now key c.event).1) with
          matcher := (f.matcher.meet now key c.event).2
          lock := f.lock.poll c.handle
          entered := f.entered ++ [c] }
  | release
      {f : Flight}
      {c : Call}
      {reply : Reply}
      (hCall : c ∈ calls)
      (hPhase : f.phase c.handle = .ran reply) :
      Step now calls f
        { f.advance c (.telling reply reply.notifications) with
          lock := f.lock.drop c.handle }
  | emit
      {f : Flight}
      {c : Call}
      {reply : Reply}
      {notice : Notification}
      {left : List Notification}
      (hCall : c ∈ calls)
      (hPhase :
        f.phase c.handle = .telling reply (notice :: left)) :
      Step now calls f
        { f.advance c (.telling reply left) with
          emitted := f.emitted ++ [notice] }
  | finish
      {f : Flight}
      {c : Call}
      {reply : Reply}
      (hCall : c ∈ calls)
      (hPhase : f.phase c.handle = .telling reply []) :
      Step now calls f (f.advance c (.done reply))

/- What the steps of the calls can lead to, in any order. -/
inductive Reachable
    (now : Readings)
    (calls : List Call)
    (m : Matcher)
    (l : KeyedLock) : Flight → Prop where
  | start : Reachable now calls m l (begin m l)
  | step
      {f g : Flight}
      (hBefore : Reachable now calls m l f)
      (hStep : Step now calls f g) :
      Reachable now calls m l g

------------------------------------------------------------
-- Calls and their claims
------------------------------------------------------------

/-
  Whether the lock is sound, its claims are those of the
  calls, and the matcher runs.
-/
structure Locked
    (calls : List Call)
    (f : Flight) : Prop where
  lock : f.lock.Sound
  claims : ∀ d ∈ f.lock.claims, ∃ c ∈ calls, c.handle = d.handle
  stands :
    ∀ c ∈ calls,
      (f.phase c.handle).Stands c.event
        (f.lock.claim? c.handle)
  running : f.matcher.stopped = false

/- Calls of one handle are the same. -/
theorem eq_of_handle
    {calls : List Call}
    (hDistinct : (calls.map Call.handle).Nodup)
    {c d : Call}
    (hFirst : c ∈ calls)
    (hSecond : d ∈ calls)
    (hHandle : c.handle = d.handle) :
    c = d :=
  List.inj_on_of_nodup_map hDistinct hFirst hSecond hHandle

/- At the beginning no call claims anything. -/
theorem locked_begin
    {calls : List Call}
    {m : Matcher}
    {l : KeyedLock}
    (hRuns : m.stopped = false)
    (hIdle : l.Idle) :
    (begin m l).Locked calls := by
  refine ⟨hIdle.sound, ?_, ?_, hRuns⟩
  · intro d hMem
    rw [begin, hIdle.claims] at hMem
    cases hMem
  · intro c hMem
    have hNone : l.claim? c.handle = none := by
      rw [KeyedLock.Sound.claim?_eq_none_iff, hIdle.claims]
      nofun
    change Phase.Stands c.event .called (l.claim? c.handle)
    rw [hNone]
    trivial

/- One call that has come further, and its claim. -/
theorem Locked.advance
    {calls : List Call}
    {f g : Flight}
    {c : Call}
    {p : Phase}
    (hLocked : f.Locked calls)
    (hDistinct : (calls.map Call.handle).Nodup)
    (hCall : c ∈ calls)
    (hPhase : g.phase = Function.update f.phase c.handle p)
    (hRuns : g.matcher.stopped = false)
    (hLock : g.lock.Sound)
    (hClaims :
      ∀ d ∈ g.lock.claims,
        d.handle = c.handle
          ∨ ∃ b ∈ f.lock.claims, b.handle = d.handle)
    (hOthers :
      ∀ other,
        other ≠ c.handle →
          g.lock.claim? other = f.lock.claim? other)
    (hStands : p.Stands c.event (g.lock.claim? c.handle)) :
    g.Locked calls := by
  refine ⟨hLock, ?_, ?_, hRuns⟩
  · intro d hMem
    rcases hClaims d hMem with hOwn | ⟨b, hIn, hHandle⟩
    · exact ⟨c, hCall, hOwn.symm⟩
    · rcases hLocked.claims b hIn with ⟨a, hOther, hSame⟩
      exact ⟨a, hOther, hSame.trans hHandle⟩
  · intro d hMem
    rw [hPhase]
    by_cases hSame : d.handle = c.handle
    · rw [eq_of_handle hDistinct hMem hCall hSame,
        Function.update_self]
      exact hStands
    · rw [Function.update_of_ne hSame, hOthers d.handle hSame]
      exact hLocked.stands d hMem

namespace Locked

variable {calls : List Call}
variable {f : Flight}
variable {c : Call}
variable {key : String}
variable {reply : Reply}

/- A call that has passed the gate claims nothing yet. -/
theorem of_passed
    (hLocked : f.Locked calls)
    (hCall : c ∈ calls)
    (hPhase : f.phase c.handle = .passed key) :
    c.event.key = .ok key
      ∧ ∀ d ∈ f.lock.claims, d.handle ≠ c.handle := by
  have hStands := hLocked.stands c hCall
  rw [hPhase] at hStands
  cases hClaim : f.lock.claim? c.handle with
  | some d =>
      rw [hClaim] at hStands
      exact hStands.elim
  | none =>
      rw [hClaim] at hStands
      exact
        ⟨hStands, KeyedLock.Sound.claim?_eq_none_iff.mp hClaim⟩

/- A call that has asked for a lock claims that of its key. -/
theorem of_asked
    (hLocked : f.Locked calls)
    (hCall : c ∈ calls)
    (hPhase : f.phase c.handle = .asked key) :
    c.event.key = .ok key
      ∧ ∃ d,
        f.lock.claim? c.handle = some d ∧ d.key = key := by
  have hStands := hLocked.stands c hCall
  rw [hPhase] at hStands
  cases hClaim : f.lock.claim? c.handle with
  | none =>
      rw [hClaim] at hStands
      exact hStands.elim
  | some d =>
      rw [hClaim] at hStands
      exact ⟨hStands.1, d, rfl, hStands.2⟩

/- A call that claims nothing, and comes further without. -/
theorem advance_free
    {g : Flight}
    {p : Phase}
    (hLocked : f.Locked calls)
    (hDistinct : (calls.map Call.handle).Nodup)
    (hCall : c ∈ calls)
    (hFree :
      ∀ d, ¬ (f.phase c.handle).Stands c.event (some d))
    (hPhase : g.phase = Function.update f.phase c.handle p)
    (hMatcher : g.matcher = f.matcher)
    (hLock : g.lock = f.lock)
    (hStands : p.Stands c.event none) :
    g.Locked calls := by
  have hNone : f.lock.claim? c.handle = none := by
    have hBefore := hLocked.stands c hCall
    cases hClaim : f.lock.claim? c.handle with
    | none => rfl
    | some d =>
        rw [hClaim] at hBefore
        exact (hFree d hBefore).elim
  refine hLocked.advance hDistinct hCall hPhase ?_ ?_ ?_ ?_ ?_
  · rw [hMatcher]
    exact hLocked.running
  · rw [hLock]
    exact hLocked.lock
  · rw [hLock]
    exact fun d hMem => .inr ⟨d, hMem, rfl⟩
  · intro other _
    rw [hLock]
  · rw [hLock, hNone]
    exact hStands

end Locked

/- Who holds a lock has a claim that is held. -/
theorem exists_claim_of_held
    {handle : String}
    {l : KeyedLock}
    (hHeld : l.standing handle = .held) :
    ∃ d, l.claim? handle = some d ∧ d.held = true := by
  unfold KeyedLock.standing at hHeld
  cases hClaim : l.claim? handle with
  | none =>
      rw [hClaim] at hHeld
      cases hHeld
  | some d =>
      rw [hClaim] at hHeld
      refine ⟨d, rfl, ?_⟩
      by_contra hNot
      simp [hNot] at hHeld

/- Every step keeps the claims in order. -/
theorem Step.locked
    {now : Readings}
    {calls : List Call}
    {f g : Flight}
    (hDistinct : (calls.map Call.handle).Nodup)
    (hStep : Step now calls f g)
    (hLocked : f.Locked calls) :
    g.Locked calls := by
  cases hStep with
  | reject hCall hPhase hGate =>
      exact hLocked.advance_free hDistinct hCall
        (by rw [hPhase]; exact fun _ => id) rfl rfl rfl trivial
  | pass hCall hPhase hGate =>
      exact hLocked.advance_free hDistinct hCall
        (by rw [hPhase]; exact fun _ => id) rfl rfl rfl
        ((Matcher.gate_of_running _ hLocked.running).symm.trans
          hGate)
  | @ask c key hCall hPhase =>
      rcases hLocked.of_passed hCall hPhase with
        ⟨hKey, hFree⟩
      refine hLocked.advance hDistinct hCall rfl
        hLocked.running (hLocked.lock.lock hFree)
        (fun d => KeyedLock.mem_claims_lock)
        (fun other hOther =>
          KeyedLock.claim?_lock_of_ne hLocked.lock hFree hOther)
        ?_
      rcases KeyedLock.claim?_lock_self key hLocked.lock
          hFree with
        ⟨d, hClaim, hOwn⟩
      change Phase.Stands _ _
        ((f.lock.lock c.handle key).claim? c.handle)
      rw [hClaim]
      exact ⟨hKey, hOwn⟩
  | @enter c key hCall hPhase hHeld =>
      rcases hLocked.of_asked hCall hPhase with
        ⟨hKey, d, hClaim, hOwn⟩
      refine hLocked.advance hDistinct hCall rfl ?_
        (hLocked.lock.poll c.handle)
        (fun d h => .inr (KeyedLock.mem_claims_poll h))
        (fun other hOther =>
          KeyedLock.claim?_poll_of_ne hLocked.lock hOther)
        ?_
      · have hMeeting :=
          f.matcher.meeting_meet now key c.event
        exact hMeeting.stopped_eq.trans hLocked.running
      · rcases KeyedLock.claim?_poll_self hClaim with
          ⟨b, hAfter, hSameKey⟩
        rcases exists_claim_of_held hHeld with
          ⟨a, hFound, hTaken⟩
        change Phase.Stands _ _
          ((f.lock.poll c.handle).claim? c.handle)
        rw [hAfter] at hFound ⊢
        cases hFound
        refine ⟨?_, hTaken⟩
        rw [hSameKey, hOwn]
        exact hKey
  | @release c reply hCall hPhase =>
      refine hLocked.advance hDistinct hCall rfl
        hLocked.running hLocked.lock.drop
        (fun d h =>
          .inr ⟨d, KeyedLock.mem_claims_drop h, rfl⟩)
        (fun other hOther =>
          KeyedLock.claim?_drop_of_ne hLocked.lock hOther)
        ?_
      change Phase.Stands _ _
        ((f.lock.drop c.handle).claim? c.handle)
      rw [KeyedLock.claim?_drop_self hLocked.lock]
      trivial
  | emit hCall hPhase =>
      exact hLocked.advance_free hDistinct hCall
        (by rw [hPhase]; exact fun _ => id) rfl rfl rfl trivial
  | finish hCall hPhase =>
      exact hLocked.advance_free hDistinct hCall
        (by rw [hPhase]; exact fun _ => id) rfl rfl rfl trivial

theorem Reachable.locked
    {now : Readings}
    {calls : List Call}
    {m : Matcher}
    {l : KeyedLock}
    {f : Flight}
    (hReachable : Reachable now calls m l f)
    (hDistinct : (calls.map Call.handle).Nodup)
    (hRuns : m.stopped = false)
    (hIdle : l.Idle) :
    f.Locked calls := by
  induction hReachable with
  | start => exact locked_begin hRuns hIdle
  | step _ hStep ih => exact hStep.locked hDistinct ih

------------------------------------------------------------
-- Calls of one key
------------------------------------------------------------

/- A call that holds a lock has a claim to its key. -/
theorem Locked.exists_own_claim
    {calls : List Call}
    {f : Flight}
    {c : Call}
    (hLocked : f.Locked calls)
    (hCall : c ∈ calls)
    (hHeld : f.lock.standing c.handle = .held) :
    ∃ d ∈ f.lock.claims,
      d.handle = c.handle
        ∧ d.held = true
        ∧ c.event.key = .ok d.key := by
  rcases exists_claim_of_held hHeld with ⟨d, hClaim, hTaken⟩
  rcases hLocked.lock.claim?_eq_some_iff.mp hClaim with
    ⟨hMem, hHandle⟩
  refine ⟨d, hMem, hHandle, hTaken, ?_⟩
  have hStands := hLocked.stands c hCall
  rw [hClaim] at hStands
  cases hPhase : f.phase c.handle with
  | asked key =>
      rw [hPhase] at hStands
      rw [hStands.1, hStands.2]
  | ran reply =>
      rw [hPhase] at hStands
      exact hStands.1
  | called =>
      rw [hPhase] at hStands
      exact hStands.elim
  | passed key =>
      rw [hPhase] at hStands
      exact hStands.elim
  | telling reply left =>
      rw [hPhase] at hStands
      exact hStands.elim
  | done reply =>
      rw [hPhase] at hStands
      exact hStands.elim

/- No two calls hold the lock of one key. -/
theorem Locked.exclusive
    {calls : List Call}
    {f : Flight}
    {c d : Call}
    (hLocked : f.Locked calls)
    (hDistinct : (calls.map Call.handle).Nodup)
    (hFirst : c ∈ calls)
    (hSecond : d ∈ calls)
    (hHeld : f.lock.standing c.handle = .held)
    (hOther : f.lock.standing d.handle = .held)
    (hKey : c.event.key = d.event.key) :
    c = d := by
  rcases hLocked.exists_own_claim hFirst hHeld with
    ⟨a, hMine, hHandle, hTaken, hName⟩
  rcases hLocked.exists_own_claim hSecond hOther with
    ⟨b, hYours, hSame, hAlso, hTheirs⟩
  rw [hName, hTheirs] at hKey
  have hEq : a = b :=
    hLocked.lock.exclusive hMine hYours hTaken hAlso
      (Except.ok.inj hKey)
  exact eq_of_handle hDistinct hFirst hSecond
    (by rw [← hHandle, hEq, hSame])

------------------------------------------------------------
-- Going on
------------------------------------------------------------

/- A call whose turn it is at its lock can go on. -/
theorem Locked.exists_step_of_owner
    {calls : List Call}
    {f : Flight}
    {c : Call}
    {d : Claim}
    (now : Readings)
    (hLocked : f.Locked calls)
    (hCall : c ∈ calls)
    (hClaim : f.lock.claim? c.handle = some d)
    (hOwner : f.lock.owner? d.slot = some d) :
    ∃ g, Step now calls f g := by
  have hStands := hLocked.stands c hCall
  rw [hClaim] at hStands
  cases hPhase : f.phase c.handle with
  | asked key =>
      refine ⟨_, .enter hCall hPhase ?_⟩
      rw [KeyedLock.poll_of_owner hClaim hOwner,
        KeyedLock.standing, KeyedLock.claim?_taken, hClaim]
      simp only [Option.map_some, KeyedLock.taken, if_true]
  | ran reply => exact ⟨_, .release hCall hPhase⟩
  | called =>
      rw [hPhase] at hStands
      exact hStands.elim
  | passed key =>
      rw [hPhase] at hStands
      exact hStands.elim
  | telling reply left =>
      rw [hPhase] at hStands
      exact hStands.elim
  | done reply =>
      rw [hPhase] at hStands
      exact hStands.elim

/-
  While a call has not ended, some call can go on: the call
  itself, or the first in the line that it stands in.
-/
theorem Locked.exists_step
    {calls : List Call}
    {f : Flight}
    {c : Call}
    (now : Readings)
    (hLocked : f.Locked calls)
    (hCall : c ∈ calls)
    (hUnfinished : ¬ (f.phase c.handle).Ended) :
    ∃ g, Step now calls f g := by
  cases hPhase : f.phase c.handle with
  | called =>
      cases hGate : f.matcher.gate c.event with
      | error reason => exact ⟨_, .reject hCall hPhase hGate⟩
      | ok key => exact ⟨_, .pass hCall hPhase hGate⟩
  | passed key => exact ⟨_, .ask hCall hPhase⟩
  | asked key =>
      rcases hLocked.of_asked hCall hPhase with
        ⟨-, d, hClaim, -⟩
      have hMem := (hLocked.lock.claim?_eq_some_iff.mp hClaim).1
      rcases KeyedLock.Sound.exists_owner hMem with
        ⟨o, hIn, hOwner, -⟩
      rcases hLocked.claims o hIn with ⟨b, hOther, hHandle⟩
      have hFirst : f.lock.claim? b.handle = some o :=
        hLocked.lock.claim?_eq_some_iff.mpr
          ⟨hIn, hHandle.symm⟩
      exact hLocked.exists_step_of_owner now hOther hFirst
        hOwner
  | ran reply => exact ⟨_, .release hCall hPhase⟩
  | telling reply left =>
      cases left with
      | nil => exact ⟨_, .finish hCall hPhase⟩
      | cons notice left => exact ⟨_, .emit hCall hPhase⟩
  | done reply => exact absurd ⟨reply, hPhase⟩ hUnfinished

/- How many steps are left for the calls at most. -/
def work
    (calls : List Call)
    (f : Flight) : Nat :=
  (calls.map fun c => (f.phase c.handle).work).sum

/-
  Where one call is given a lighter weight, the calls weigh
  less together.
-/
theorem sum_update_lt
    {α β : Type}
    {calls : List α}
    {name : α → String}
    {phase : String → β}
    {weight : β → Nat}
    {c : α}
    {p : β}
    (hDistinct : (calls.map name).Nodup)
    (hCall : c ∈ calls)
    (hLess : weight p < weight (phase (name c))) :
    (calls.map fun d =>
        weight (Function.update phase (name c) p (name d))).sum
      < (calls.map fun d => weight (phase (name d))).sum := by
  induction calls with
  | nil => cases hCall
  | cons d calls ih =>
      rw [List.map_cons, List.nodup_cons] at hDistinct
      rcases hDistinct with ⟨hNew, hRest⟩
      simp only [List.map_cons, List.sum_cons]
      rcases List.mem_cons.mp hCall with hHere | hThere
      · subst hHere
        have hOthers :
            (calls.map fun d =>
              weight (Function.update phase (name c) p (name d)))
              = calls.map fun d => weight (phase (name d)) := by
          apply List.map_congr_left
          intro d hMem
          have hNe : name d ≠ name c := fun hSame =>
            hNew (hSame ▸ List.mem_map_of_mem hMem)
          rw [Function.update_of_ne hNe]
        rw [hOthers, Function.update_self]
        omega
      · have hNe : name d ≠ name c := fun hSame =>
          hNew (hSame ▸ List.mem_map_of_mem hThere)
        have hLater := ih hRest hThere
        rw [Function.update_of_ne hNe]
        omega

/- A call that comes further leaves less work. -/
theorem work_advance_lt
    {calls : List Call}
    {f : Flight}
    {c : Call}
    {p : Phase}
    (hDistinct : (calls.map Call.handle).Nodup)
    (hCall : c ∈ calls)
    (hLess : p.work < (f.phase c.handle).work) :
    (f.advance c p).work calls < f.work calls :=
  sum_update_lt hDistinct hCall hLess

end Flight

/- A meeting tells of a relay and of a leg at most. -/
theorem Matcher.Meeting.length_notifications_le
    {now : Readings}
    {key : String}
    {m after : Matcher}
    {e : Event}
    {reply : Reply}
    (hMeeting : Meeting now key m e reply after) :
    reply.notifications.length ≤ 2 := by
  cases hMeeting with
  | unread => exact Nat.zero_le 2
  | unreadRelay => exact Nat.zero_le 2
  | @sentMatched _ _ relayed =>
      cases relayed with
      | none => exact Nat.le_succ 1
      | some r => exact Nat.le_refl 2
  | @sentWaits _ relayed =>
      cases relayed with
      | none => exact Nat.zero_le 2
      | some r => exact Nat.le_succ 1
  | receivedMatched => exact Nat.le_succ 1
  | receivedWaits => exact Nat.zero_le 2
  | relayedTold => exact Nat.le_succ 1
  | relayedWaits => exact Nat.zero_le 2
  | overwritten => exact Nat.zero_le 2

/- Every step leaves less work. -/
theorem Flight.Step.work_lt
    {now : Readings}
    {calls : List Call}
    {f g : Flight}
    (hDistinct : (calls.map Call.handle).Nodup)
    (hStep : Step now calls f g) :
    g.work calls < f.work calls := by
  cases hStep with
  | reject hCall hPhase =>
      exact work_advance_lt hDistinct hCall
        (by rw [hPhase]; exact Nat.zero_lt_succ 6)
  | pass hCall hPhase =>
      exact work_advance_lt hDistinct hCall
        (by rw [hPhase]; exact Nat.lt_succ_self 6)
  | ask hCall hPhase =>
      exact work_advance_lt hDistinct hCall
        (by rw [hPhase]; exact Nat.lt_succ_self 5)
  | @enter c key hCall hPhase =>
      refine work_advance_lt hDistinct hCall ?_
      have hMost :=
        (f.matcher.meeting_meet now key
          c.event).length_notifications_le
      rw [hPhase]
      simp only [Phase.work]
      omega
  | release hCall hPhase =>
      exact work_advance_lt hDistinct hCall
        (by rw [hPhase]; exact Nat.lt_succ_self _)
  | emit hCall hPhase =>
      exact work_advance_lt hDistinct hCall
        (by rw [hPhase]; exact Nat.lt_succ_self _)
  | finish hCall hPhase =>
      exact work_advance_lt hDistinct hCall
        (by rw [hPhase]; exact Nat.zero_lt_one)

end JourneyMatch

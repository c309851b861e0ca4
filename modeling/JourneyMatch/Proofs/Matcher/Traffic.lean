import Mathlib.Data.Finset.Basic
import Mathlib.Logic.Relation
import JourneyMatch.Proofs.Matcher.Flight
import JourneyMatch.Proofs.Matcher.Visitor

/-
  This file defines calls of the matcher that are in flight
  while it is stopped, and every order in which their steps
  can be made. A call keeps a permit of the gate from before
  it looks whether the matcher is stopped until it returns:
  while it waits for the lock of a key, runs, and tells its
  notifications. To stop the matcher takes the gate for
  itself.

  A call that nothing comes between does what the matcher
  does. Events in flight, with a gate that is only looked at,
  are calls of this kind: what they can come to, the calls
  with permits can come to as well.

  Key definitions include:
    * `Traffic`
    * `Traffic.Step`
    * `Traffic.Reachable`
    * `Traffic.Served`
    * `Phase.stage`
    * `Traffic.Mirrors`

  Main statements:
    * `Traffic.exists_answered`
    * `Traffic.Mirrors.step`
    * `Flight.Reachable.exists_traffic`
-/

namespace JourneyMatch

------------------------------------------------------------
-- Calls at the gate
------------------------------------------------------------

/-
  The matcher, its lock, who has a permit of the gate beside
  others, who has the gate for itself, how far each call has
  come by its handle, which calls have found the matcher
  running, and what each has told.
-/
structure Traffic where
  matcher : Matcher
  lock : KeyedLock
  permits : Finset String
  owner : Option String
  stage : String → Stage
  passed : Finset String
  told : List (String × Notification)

namespace Traffic

/- The beginning, when no call has made a step. -/
def begin
    (m : Matcher)
    (l : KeyedLock) : Traffic :=
  ⟨m, l, ∅, none, fun _ => .outside, ∅, []⟩

/- A call that has come further. -/
def advance
    (c : Visitor)
    (p : Stage)
    (f : Traffic) : Traffic :=
  { f with stage := Function.update f.stage c.handle p }

/- What a call has told, in order. -/
def toldBy
    (handle : String)
    (f : Traffic) : List Notification :=
  (f.told.filter fun entry => entry.1 = handle).map Prod.snd

/-
  The steps that calls can make. The gate lets any number of
  calls in while nobody has it for itself, and gives itself to
  one that closes it while nobody is inside; which of those
  who wait comes next is left open.
-/
inductive Step
    (visitors : List Visitor) : Traffic → Traffic → Prop where
  | come
      {f : Traffic}
      {c : Visitor}
      (hVisitor : c ∈ visitors)
      (hRequest : c.request ≠ .stop)
      (hStage : f.stage c.handle = .outside)
      (hOpen : f.owner = none) :
      Step visitors f
        { f.advance c .letIn with
          permits := insert c.handle f.permits }
  | turnAway
      {f : Traffic}
      {c : Visitor}
      (hVisitor : c ∈ visitors)
      (hStage : f.stage c.handle = .letIn)
      (hStopped : f.matcher.stopped = true) :
      Step visitors f (f.advance c (.ready c.request.turnedAway))
  | pass
      {f : Traffic}
      {c : Visitor}
      (hVisitor : c ∈ visitors)
      (hStage : f.stage c.handle = .letIn)
      (hRuns : f.matcher.stopped = false) :
      Step visitors f
        { f.advance c .begun with
          passed := insert c.handle f.passed }
  | proceed
      {f : Traffic}
      {c : Visitor}
      {said : List Notification}
      {w : Desk}
      (hVisitor : c ∈ visitors)
      (hProceeds :
        c.Proceeds ⟨f.matcher, f.lock, f.stage c.handle⟩ said w) :
      Step visitors f
        { f.advance c w.stage with
          matcher := w.matcher
          lock := w.lock
          told := f.told ++ said.map fun x => (c.handle, x) }
  | leave
      {f : Traffic}
      {c : Visitor}
      {answer : Answer}
      (hVisitor : c ∈ visitors)
      (hStage : f.stage c.handle = .ready answer) :
      Step visitors f
        { f.advance c (.done answer) with
          permits := f.permits.erase c.handle }
  | close
      {f : Traffic}
      {c : Visitor}
      (hVisitor : c ∈ visitors)
      (hRequest : c.request = .stop)
      (hStage : f.stage c.handle = .outside)
      (hOpen : f.owner = none)
      (hEmpty : f.permits = ∅) :
      Step visitors f
        { f.advance c .closing with owner := some c.handle }
  | mark
      {f : Traffic}
      {c : Visitor}
      (hVisitor : c ∈ visitors)
      (hRequest : c.request = .stop)
      (hStage : f.stage c.handle = .closing)
      (hRuns : f.matcher.stopped = false) :
      Step visitors f
        { f.advance c .closed with matcher := f.matcher.stop }
  | again
      {f : Traffic}
      {c : Visitor}
      (hVisitor : c ∈ visitors)
      (hRequest : c.request = .stop)
      (hStage : f.stage c.handle = .closing)
      (hStopped : f.matcher.stopped = true) :
      Step visitors f
        { f.advance c (.done .stop) with owner := none }
  | reopen
      {f : Traffic}
      {c : Visitor}
      (hVisitor : c ∈ visitors)
      (hRequest : c.request = .stop)
      (hStage : f.stage c.handle = .closed) :
      Step visitors f
        { f.advance c (.done .stop) with owner := none }

/- What the steps of the calls can lead to, in any order. -/
inductive Reachable
    (visitors : List Visitor)
    (m : Matcher)
    (l : KeyedLock) : Traffic → Prop where
  | start : Reachable visitors m l (begin m l)
  | step
      {f g : Traffic}
      (hBefore : Reachable visitors m l f)
      (hStep : Step visitors f g) :
      Reachable visitors m l g

/- Steps that follow lead to what can be reached, too. -/
theorem Reachable.steps
    {visitors : List Visitor}
    {m : Matcher}
    {l : KeyedLock}
    {f g : Traffic}
    (hReachable : Reachable visitors m l f)
    (hSteps : Relation.ReflTransGen (Step visitors) f g) :
    Reachable visitors m l g := by
  induction hSteps with
  | refl => exact hReachable
  | tail _ hLast ih => exact ih.step hLast

------------------------------------------------------------
-- A call that nothing comes between
------------------------------------------------------------

section Undisturbed

variable {visitors : List Visitor}
variable {c : Visitor}
variable {f : Traffic}

/- What a call that works makes of all that is at the gate. -/
def worked
    (c : Visitor)
    (said : List Notification)
    (w : Desk)
    (f : Traffic) : Traffic :=
  { f.advance c w.stage with
    matcher := w.matcher
    lock := w.lock
    told := f.told ++ said.map fun x => (c.handle, x) }

/- A call that has done nothing has changed nothing. -/
theorem worked_self
    (c : Visitor)
    (f : Traffic) :
    f.worked c [] ⟨f.matcher, f.lock, f.stage c.handle⟩
      = f := by
  simp [worked, advance]

/- What a call does in two parts it does in one. -/
theorem worked_worked
    (said more : List Notification)
    (w x : Desk)
    (c : Visitor)
    (f : Traffic) :
    (f.worked c said w).worked c more x
      = f.worked c (said ++ more) x := by
  simp [worked, advance]

/- The steps of a working call are steps at the gate. -/
theorem steps_of_runs
    {v w : Desk}
    {said : List Notification}
    (hVisitor : c ∈ visitors)
    (hRuns : c.Runs v said w)
    (hDesk : v = ⟨f.matcher, f.lock, f.stage c.handle⟩) :
    Relation.ReflTransGen (Step visitors) f
      (f.worked c said w) := by
  induction hRuns generalizing f with
  | refl =>
      rw [hDesk, worked_self]
  | @step v w x said more hFirst hRest ih =>
      subst hDesk
      have hHere :
          w = ⟨w.matcher, w.lock,
            (f.worked c said w).stage c.handle⟩ := by
        simp [worked, advance]
      rw [← worked_worked said more w]
      exact .head (.proceed hVisitor hFirst) (ih hHere)

/- A call that has found the matcher running, with a permit. -/
def begun
    (c : Visitor)
    (f : Traffic) : Traffic :=
  { f.advance c .begun with
    permits := insert c.handle f.permits
    passed := insert c.handle f.passed }

/- One that comes while the gate is open and the matcher runs. -/
theorem steps_begun
    (hVisitor : c ∈ visitors)
    (hRequest : c.request ≠ .stop)
    (hStage : f.stage c.handle = .outside)
    (hOpen : f.owner = none)
    (hRunning : f.matcher.stopped = false) :
    Relation.ReflTransGen (Step visitors) f (f.begun c) := by
  have hCome := Step.come hVisitor hRequest hStage hOpen
  have hPass :=
    Step.pass hVisitor
      (f := { f.advance c .letIn with
        permits := insert c.handle f.permits })
      (Function.update_self _ _ _) hRunning
  have hSteps := (Relation.ReflTransGen.single hCome).tail hPass
  simpa [advance, begun] using hSteps

/-
  Whether a call has been served and nothing else has
  happened: it has returned its answer, and has told what
  belongs to it.
-/
structure Served
    (c : Visitor)
    (answer : Answer)
    (m : Matcher)
    (l : KeyedLock)
    (f g : Traffic) : Prop where
  matcher : g.matcher = m
  lock : g.lock = l
  owner : g.owner = none
  permits : g.permits = f.permits.erase c.handle
  stage :
    g.stage = Function.update f.stage c.handle (.done answer)
  told :
    g.told
      = f.told
        ++ answer.notifications.map fun x => (c.handle, x)

/-
  A call that comes while the gate is open and the matcher
  runs, and that nothing comes between, is let in, works and
  leaves.
-/
theorem exists_served
    {m : Matcher}
    {l : KeyedLock}
    {answer : Answer}
    {said : List Notification}
    (hVisitor : c ∈ visitors)
    (hRequest : c.request ≠ .stop)
    (hStage : f.stage c.handle = .outside)
    (hOpen : f.owner = none)
    (hRunning : f.matcher.stopped = false)
    (hRuns :
      c.Runs ⟨f.matcher, f.lock, .begun⟩ said
        ⟨m, l, .ready answer⟩)
    (hSaid : said = answer.notifications) :
    ∃ g,
      Relation.ReflTransGen (Step visitors) f g
        ∧ Served c answer m l f g
        ∧ g.passed = insert c.handle f.passed := by
  subst hSaid
  have hBegun :=
    steps_begun hVisitor hRequest hStage hOpen hRunning
  have hWork :=
    steps_of_runs hVisitor hRuns
      (f := f.begun c) (by simp [advance, begun])
  have hLeave :=
    hWork.tail (.leave hVisitor (Function.update_self _ _ _))
  refine
    ⟨_, hBegun.trans hLeave,
      ⟨rfl, rfl, hOpen, Finset.erase_insert_eq_erase _ _, ?_,
        rfl⟩, rfl⟩
  simp [worked, begun, advance]

/-
  A call that comes while the gate is open and the matcher is
  stopped, and that nothing comes between, is turned away.
-/
theorem exists_turnedAway
    (hVisitor : c ∈ visitors)
    (hRequest : c.request ≠ .stop)
    (hStage : f.stage c.handle = .outside)
    (hOpen : f.owner = none)
    (hStopped : f.matcher.stopped = true) :
    ∃ g,
      Relation.ReflTransGen (Step visitors) f g
        ∧ Served c c.request.turnedAway f.matcher f.lock f g
        ∧ g.passed = f.passed := by
  have hCome := Step.come hVisitor hRequest hStage hOpen
  have hTurn :=
    Step.turnAway hVisitor
      (f := { f.advance c .letIn with
        permits := insert c.handle f.permits })
      (Function.update_self _ _ _) hStopped
  have hLeave :=
    (Relation.ReflTransGen.single hTurn).tail
      (.leave hVisitor (Function.update_self _ _ _))
  refine
    ⟨_, .head hCome hLeave,
      ⟨rfl, rfl, hOpen, Finset.erase_insert_eq_erase _ _, ?_,
        ?_⟩, rfl⟩
  · simp [advance]
  · rw [c.request.notifications_turnedAway]
    exact (List.append_nil _).symm

/-
  A call that stops the matcher, comes while nobody is at the
  gate, and that nothing comes between: it closes the gate,
  marks the matcher, and gives the gate back.
-/
theorem exists_stopped
    (hVisitor : c ∈ visitors)
    (hRequest : c.request = .stop)
    (hStage : f.stage c.handle = .outside)
    (hOpen : f.owner = none)
    (hEmpty : f.permits = ∅) :
    ∃ g,
      Relation.ReflTransGen (Step visitors) f g
        ∧ Served c .stop f.matcher.stop f.lock f g
        ∧ g.passed = f.passed := by
  have hClose :=
    Step.close hVisitor hRequest hStage hOpen hEmpty
  have hKept : f.permits = f.permits.erase c.handle := by
    rw [hEmpty, Finset.erase_empty]
  have hHere := Function.update_self c.handle Stage.closing f.stage
  cases hStopped : f.matcher.stopped with
  | true =>
      have hStop : f.matcher = f.matcher.stop := by
        rw [Matcher.stop, ← hStopped]
      refine
        ⟨_,
          .tail (.single hClose)
            (.again hVisitor hRequest hHere hStopped),
          ⟨hStop, rfl, rfl, hKept, ?_,
            (List.append_nil _).symm⟩, rfl⟩
      simp [advance]
  | false =>
      have hMark :=
        (Relation.ReflTransGen.single hClose).tail
          (.mark hVisitor hRequest hHere hStopped)
      refine
        ⟨_,
          hMark.tail
            (.reopen hVisitor hRequest
              (Function.update_self _ _ _)),
          ⟨rfl, rfl, rfl, hKept, ?_,
            (List.append_nil _).symm⟩, rfl⟩
      simp [advance]

/-
  A call that comes while nobody is at the gate, and that
  nothing comes between, is answered as the matcher answers
  it alone. It counts among those that have found the matcher
  running, if the matcher runs and it does not stop it.
-/
theorem exists_answered
    (hVisitor : c ∈ visitors)
    (hStage : f.stage c.handle = .outside)
    (hOpen : f.owner = none)
    (hEmpty : f.permits = ∅)
    (hIdle : f.lock.Idle)
    (now : Readings) :
    ∃ l g,
      KeyedLock.Idle l
        ∧ Relation.ReflTransGen (Step visitors) f g
        ∧ Served c (c.request.answered now f.matcher).1
          (c.request.answered now f.matcher).2 l f g
        ∧ (c.request ≠ .stop →
          f.matcher.stopped = false →
            g.passed = insert c.handle f.passed) := by
  by_cases hRequest : c.request = .stop
  · rcases exists_stopped hVisitor hRequest hStage hOpen hEmpty
      with ⟨g, hSteps, hServed, -⟩
    refine
      ⟨f.lock, g, hIdle, hSteps, ?_,
        fun hOther => absurd hRequest hOther⟩
    rw [hRequest]
    exact hServed
  · cases hStopped : f.matcher.stopped with
    | true =>
        rcases exists_turnedAway hVisitor hRequest hStage hOpen
            hStopped with ⟨g, hSteps, hServed, -⟩
        refine
          ⟨f.lock, g, hIdle, hSteps, ?_,
            fun _ hFalse => Bool.noConfusion hFalse⟩
        rw [c.request.answered_of_stopped now hStopped]
        exact hServed
    | false =>
        rcases Visitor.runs_answered now hRequest hStopped hIdle
          with ⟨free, hFree, hRuns⟩
        rcases exists_served hVisitor hRequest hStage hOpen
            hStopped hRuns rfl with
          ⟨g, hSteps, hServed, hPassed⟩
        exact
          ⟨free, g, hFree, hSteps, hServed, fun _ _ => hPassed⟩

end Undisturbed

end Traffic

------------------------------------------------------------
-- Events in flight as calls with permits
------------------------------------------------------------

/- A call in flight as one that comes to the gate. -/
def Call.visitor
    (c : Call) : Visitor :=
  ⟨c.handle, .event c.event⟩

/- It does not stop the matcher. -/
theorem Call.request_visitor
    (c : Call) :
    c.visitor.request ≠ .stop := by
  intro hStop
  cases hStop

/-
  How far a call in flight has come, as one with a permit. It
  has its permit from when it has passed until it has ended.
-/
def Phase.stage : Phase → Stage
  | .called => .outside
  | .passed key => .keyed key
  | .asked key => .asked key
  | .ran reply => .ran reply
  | .telling reply left => .telling reply left
  | .done reply => .done (.event reply)

namespace Traffic

/-
  Whether what is at the gate is what is in flight, with
  nobody who closes the gate.
-/
structure Mirrors
    (f : Flight)
    (g : Traffic) : Prop where
  matcher : g.matcher = f.matcher
  lock : g.lock = f.lock
  owner : g.owner = none
  stage : g.stage = fun h => (f.phase h).stage
  told : g.told.map Prod.snd = f.emitted

namespace Mirrors

variable {calls : List Call}
variable {f : Flight}
variable {g : Traffic}
variable {c : Call}

/- A call at the gate is as far as the one in flight. -/
theorem stage_of_phase
    {p : Phase}
    (hMirrors : Mirrors f g)
    (hPhase : f.phase c.handle = p) :
    g.stage c.visitor.handle = p.stage := by
  rw [hMirrors.stage, ← hPhase]
  rfl

/- The stages after one call in flight has come further. -/
theorem stage_advance
    (hMirrors : Mirrors f g)
    (p : Phase) :
    Function.update g.stage c.visitor.handle p.stage
      = fun h =>
        (Function.update f.phase c.handle p h).stage := by
  rw [hMirrors.stage]
  exact (Function.comp_update Phase.stage f.phase c.handle p).symm

/- A call in flight that works does so at the gate. -/
theorem proceed
    {p : Phase}
    {w : Flight}
    {said : List Notification}
    (hMirrors : Mirrors f g)
    (hCall : c ∈ calls)
    (hProceeds :
      c.visitor.Proceeds
        ⟨f.matcher, f.lock, (f.phase c.handle).stage⟩ said
        ⟨w.matcher, w.lock, p.stage⟩)
    (hPhase : w.phase = Function.update f.phase c.handle p)
    (hEmitted : w.emitted = f.emitted ++ said) :
    ∃ x,
      Relation.ReflTransGen (Step (calls.map Call.visitor)) g x
        ∧ Mirrors w x := by
  rw [← hMirrors.stage_of_phase rfl, ← hMirrors.matcher,
    ← hMirrors.lock] at hProceeds
  refine
    ⟨_,
      .single
        (.proceed (List.mem_map_of_mem hCall) hProceeds),
      rfl, rfl, hMirrors.owner, ?_, ?_⟩
  · rw [hPhase]
    exact hMirrors.stage_advance p
  · simp [hEmitted, hMirrors.told, Function.comp_def]

/- One that is served at the gate has ended in flight. -/
theorem of_served
    {w : Flight}
    {x : Traffic}
    {reply : Reply}
    (hMirrors : Mirrors f g)
    (hServed :
      Served c.visitor (.event reply) w.matcher w.lock g x)
    (hPhase :
      w.phase = Function.update f.phase c.handle (.done reply))
    (hEmitted : w.emitted = f.emitted ++ reply.notifications) :
    Mirrors w x := by
  refine
    ⟨hServed.matcher, hServed.lock, hServed.owner, ?_, ?_⟩
  · rw [hServed.stage, hPhase]
    exact hMirrors.stage_advance (.done reply)
  · rw [hServed.told, List.map_append, hMirrors.told, hEmitted,
      List.map_map]
    exact congrArg _ (List.map_id _)

/-
  A step of a call in flight is one or more at the gate: who
  is rejected comes and leaves, who passes comes first, and
  who is finished leaves.
-/
theorem step
    {now : Readings}
    {w : Flight}
    (hMirrors : Mirrors f g)
    (hStep : Flight.Step now calls f w) :
    ∃ x,
      Relation.ReflTransGen (Step (calls.map Call.visitor)) g x
        ∧ Mirrors w x := by
  cases hStep with
  | @reject c reason hCall hPhase hGate =>
      have hVisitor : c.visitor ∈ calls.map Call.visitor :=
        List.mem_map_of_mem hCall
      have hOutside := hMirrors.stage_of_phase hPhase
      have hTurned :
          ∃ x,
            Relation.ReflTransGen
                (Step (calls.map Call.visitor)) g x
              ∧ Served c.visitor (.event (.rejected reason))
                g.matcher g.lock g x := by
        cases hStopped : f.matcher.stopped with
        | true =>
            have hReason : reason = .stopped := by
              simpa [Matcher.gate, hStopped, eq_comm] using hGate
            rcases exists_turnedAway hVisitor c.request_visitor
                hOutside hMirrors.owner
                (hMirrors.matcher ▸ hStopped) with
              ⟨x, hSteps, hServed, -⟩
            rw [hReason]
            exact ⟨x, hSteps, hServed⟩
        | false =>
            have hKey :=
              (Matcher.gate_of_running _ hStopped).symm.trans
                hGate
            rcases exists_served hVisitor c.request_visitor
                hOutside hMirrors.owner
                (hMirrors.matcher ▸ hStopped)
                (.step (.reject rfl hKey) .refl) rfl with
              ⟨x, hSteps, hServed, -⟩
            exact ⟨x, hSteps, hServed⟩
      rcases hTurned with ⟨x, hSteps, hServed⟩
      rw [hMirrors.matcher, hMirrors.lock] at hServed
      exact
        ⟨x, hSteps,
          hMirrors.of_served hServed rfl
            (List.append_nil _).symm⟩
  | @pass c key hCall hPhase hGate =>
      have hVisitor : c.visitor ∈ calls.map Call.visitor :=
        List.mem_map_of_mem hCall
      have hOutside := hMirrors.stage_of_phase hPhase
      have hRuns : f.matcher.stopped = false := by
        cases hStopped : f.matcher.stopped with
        | true => simp [Matcher.gate, hStopped] at hGate
        | false => rfl
      have hKey :=
        (Matcher.gate_of_running _ hRuns).symm.trans hGate
      have hBegun :=
        steps_begun hVisitor c.request_visitor hOutside
          hMirrors.owner
          (hMirrors.matcher ▸ hRuns)
      have hRun :
          c.visitor.Runs ⟨g.matcher, g.lock, .begun⟩ []
            ⟨g.matcher, g.lock, .keyed key⟩ :=
        .step (.pass rfl hKey) .refl
      have hPass :=
        steps_of_runs hVisitor hRun
          (f := g.begun c.visitor) (by simp [advance, begun])
      refine
        ⟨_, hBegun.trans hPass, hMirrors.matcher,
          hMirrors.lock, hMirrors.owner, ?_, ?_⟩
      · simp only [worked, begun, advance,
          Function.update_idem]
        exact hMirrors.stage_advance (.passed key)
      · exact
          (congrArg (List.map Prod.snd)
            (List.append_nil g.told)).trans hMirrors.told
  | @ask c key hCall hPhase =>
      refine
        hMirrors.proceed hCall ?_ rfl (List.append_nil _).symm
      rw [hPhase]
      exact .ask
  | @enter c key hCall hPhase hHeld =>
      refine
        hMirrors.proceed hCall ?_ rfl (List.append_nil _).symm
      rw [hPhase]
      exact .enter now rfl hHeld
  | @release c reply hCall hPhase =>
      refine
        hMirrors.proceed hCall ?_ rfl (List.append_nil _).symm
      rw [hPhase]
      exact .release
  | @emit c reply notice left hCall hPhase =>
      refine hMirrors.proceed hCall ?_ rfl rfl
      rw [hPhase]
      exact .tell
  | @finish c reply hCall hPhase =>
      have hVisitor : c.visitor ∈ calls.map Call.visitor :=
        List.mem_map_of_mem hCall
      have hTelling := hMirrors.stage_of_phase hPhase
      have hProceeds :
          c.visitor.Proceeds
            ⟨g.matcher, g.lock, g.stage c.visitor.handle⟩ []
            ⟨g.matcher, g.lock, .ready (.event reply)⟩ := by
        rw [hTelling]
        exact .told
      refine
        ⟨_,
          .tail (.single (.proceed hVisitor hProceeds))
            (.leave hVisitor (Function.update_self _ _ _)),
          hMirrors.matcher, hMirrors.lock, hMirrors.owner,
          ?_, ?_⟩
      · simp only [advance, Function.update_idem]
        exact hMirrors.stage_advance (.done reply)
      · exact
          (congrArg (List.map Prod.snd)
            (List.append_nil g.told)).trans hMirrors.told

end Mirrors

end Traffic

/-
  Whatever calls in flight can come to, calls with permits
  can come to as well: the same matcher and lock, every call
  as far, and the same notifications in the same order.
-/
theorem Flight.Reachable.exists_traffic
    {now : Readings}
    {calls : List Call}
    {m : Matcher}
    {l : KeyedLock}
    {f : Flight}
    (hReachable : Flight.Reachable now calls m l f) :
    ∃ g,
      Traffic.Reachable (calls.map Call.visitor) m l g
        ∧ Traffic.Mirrors f g := by
  induction hReachable with
  | start => exact ⟨_, .start, rfl, rfl, rfl, rfl, rfl⟩
  | step _ hStep ih =>
      rcases ih with ⟨g, hBefore, hMirrors⟩
      rcases hMirrors.step hStep with ⟨x, hSteps, hAfter⟩
      exact ⟨x, hBefore.steps hSteps, hAfter⟩

end JourneyMatch

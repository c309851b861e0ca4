import JourneyMatch.Proofs.Matcher.Failure
import JourneyMatch.Proofs.Matcher.Traffic

/-
  This file says that to stop the matcher is a clean cut,
  whatever calls are in flight: when the matcher is marked as
  stopped, each call that has found it running has returned
  and has told everything. A call that stops it has marked it
  when it returns. From then on nothing changes and nothing is
  told, and each further call is turned away.

  Key definitions include:
    * `Traffic.Orderly`
    * `Traffic.Marked`

  Main statements:
    * `Traffic.Step.orderly`
    * `Traffic.Step.marked`
    * `Traffic.Step.of_stopped`
    * `Traffic.Reachable.clean_cut`
-/

namespace JourneyMatch

namespace Traffic

------------------------------------------------------------
-- Order at the gate
------------------------------------------------------------

/-
  Whether permits and calls belong together, nobody has a
  permit beside one who has the gate for itself, calls work
  only while the matcher runs, those that have found it
  running are known, the others are turned away, and all have
  told what is due.
-/
structure Orderly
    (visitors : List Visitor)
    (f : Traffic) : Prop where
  permits : ∀ h, h ∈ f.permits ↔ (f.stage h).Inside
  owner : ∀ h, f.owner = some h ↔ (f.stage h).Alone
  apart : f.owner ≠ none → f.permits = ∅
  running : ∀ h, (f.stage h).Working → f.matcher.stopped = false
  working : ∀ h, (f.stage h).Working → h ∈ f.passed
  passed :
    ∀ h ∈ f.passed, (f.stage h).Inside ∨ (f.stage h).Ended
  others :
    ∀ c ∈ visitors,
      c.handle ∉ f.passed →
        ∀ answer,
          (f.stage c.handle = .ready answer
              ∨ f.stage c.handle = .done answer) →
            answer = c.request.turnedAway
  told : ∀ h, f.toldBy h ++ (f.stage h).untold = (f.stage h).due
  stops :
    ∀ c ∈ visitors, (f.stage c.handle).Alone → c.request = .stop
  known :
    ∀ h, f.stage h ≠ .outside → ∃ c ∈ visitors, c.handle = h

/- At the beginning nobody is at the gate. -/
theorem orderly_begin
    (visitors : List Visitor)
    (m : Matcher)
    (l : KeyedLock) :
    (begin m l).Orderly visitors := by
  constructor <;>
    simp [begin, toldBy, Stage.Inside, Stage.Alone,
      Stage.Working, Stage.untold, Stage.due]

/-
  One call that has come further, while the others stay as
  they are.
-/
theorem Orderly.advance
    {visitors : List Visitor}
    {f g : Traffic}
    {c : Visitor}
    {p : Stage}
    (hOrderly : f.Orderly visitors)
    (hDistinct : (visitors.map Visitor.handle).Nodup)
    (hVisitor : c ∈ visitors)
    (hStage : g.stage = Function.update f.stage c.handle p)
    (hPermits :
      ∀ h,
        h ∈ g.permits
          ↔ if h = c.handle then p.Inside else h ∈ f.permits)
    (hOwner :
      ∀ h,
        g.owner = some h
          ↔ if h = c.handle then p.Alone else f.owner = some h)
    (hApart : g.owner ≠ none → g.permits = ∅)
    (hRunning :
      ∀ h, (g.stage h).Working → g.matcher.stopped = false)
    (hPassed :
      ∀ h, h ≠ c.handle → (h ∈ g.passed ↔ h ∈ f.passed))
    (hWorks : p.Working → c.handle ∈ g.passed)
    (hIn : c.handle ∈ g.passed → p.Inside ∨ p.Ended)
    (hOut :
      c.handle ∉ g.passed →
        ∀ answer,
          (p = .ready answer ∨ p = .done answer) →
            answer = c.request.turnedAway)
    (hTold : ∀ h, h ≠ c.handle → g.toldBy h = f.toldBy h)
    (hTells : g.toldBy c.handle ++ p.untold = p.due)
    (hStops : p.Alone → c.request = .stop) :
    g.Orderly visitors := by
  have hOwn : g.stage c.handle = p := by
    rw [hStage, Function.update_self]
  have hOther : ∀ h, h ≠ c.handle → g.stage h = f.stage h := by
    intro h hNe
    rw [hStage, Function.update_of_ne hNe]
  have hEq : ∀ d ∈ visitors, d.handle = c.handle → d = c :=
    fun d hMem hSame =>
      List.inj_on_of_nodup_map hDistinct hMem hVisitor hSame
  refine ⟨?_, ?_, hApart, hRunning, ?_, ?_, ?_, ?_, ?_, ?_⟩
  · intro h
    rw [hPermits]
    by_cases hSame : h = c.handle
    · rw [if_pos hSame, hSame, hOwn]
    · rw [if_neg hSame, hOther h hSame]
      exact hOrderly.permits h
  · intro h
    rw [hOwner]
    by_cases hSame : h = c.handle
    · rw [if_pos hSame, hSame, hOwn]
    · rw [if_neg hSame, hOther h hSame]
      exact hOrderly.owner h
  · intro h hWorking
    by_cases hSame : h = c.handle
    · rw [hSame, hOwn] at hWorking
      exact hSame ▸ hWorks hWorking
    · rw [hOther h hSame] at hWorking
      exact (hPassed h hSame).mpr (hOrderly.working h hWorking)
  · intro h hMem
    by_cases hSame : h = c.handle
    · rw [hSame, hOwn]
      exact hIn (hSame ▸ hMem)
    · rw [hOther h hSame]
      exact hOrderly.passed h ((hPassed h hSame).mp hMem)
  · intro d hMem hFresh answer hAnswer
    by_cases hSame : d.handle = c.handle
    · rw [hEq d hMem hSame, hOwn] at hAnswer
      rw [hEq d hMem hSame] at hFresh ⊢
      exact hOut hFresh answer hAnswer
    · rw [hOther d.handle hSame] at hAnswer
      exact
        hOrderly.others d hMem
          (fun hOld => hFresh ((hPassed _ hSame).mpr hOld))
          answer hAnswer
  · intro h
    by_cases hSame : h = c.handle
    · rw [hSame, hOwn]
      exact hTells
    · rw [hOther h hSame, hTold h hSame]
      exact hOrderly.told h
  · intro d hMem hAlone
    by_cases hSame : d.handle = c.handle
    · rw [hEq d hMem hSame, hOwn] at hAlone
      exact hEq d hMem hSame ▸ hStops hAlone
    · rw [hOther d.handle hSame] at hAlone
      exact hOrderly.stops d hMem hAlone
  · intro h hMoved
    by_cases hSame : h = c.handle
    · exact ⟨c, hVisitor, hSame.symm⟩
    · rw [hOther h hSame] at hMoved
      exact hOrderly.known h hMoved

/- Calls work while the matcher runs, as before. -/
theorem Orderly.running_advance
    {visitors : List Visitor}
    {f g : Traffic}
    {c : Visitor}
    {p : Stage}
    (hOrderly : f.Orderly visitors)
    (hStage : g.stage = Function.update f.stage c.handle p)
    (hMatcher : g.matcher.stopped = f.matcher.stopped)
    (hOwn : p.Working → f.matcher.stopped = false)
    (h : String)
    (hWorking : (g.stage h).Working) :
    g.matcher.stopped = false := by
  rw [hMatcher]
  rw [hStage] at hWorking
  by_cases hSame : h = c.handle
  · rw [hSame, Function.update_self] at hWorking
    exact hOwn hWorking
  · rw [Function.update_of_ne hSame] at hWorking
    exact hOrderly.running h hWorking

/- One call that has come further and keeps its permit. -/
theorem Orderly.advance_inside
    {visitors : List Visitor}
    {f g : Traffic}
    {c : Visitor}
    {p : Stage}
    (hOrderly : f.Orderly visitors)
    (hDistinct : (visitors.map Visitor.handle).Nodup)
    (hVisitor : c ∈ visitors)
    (hStage : g.stage = Function.update f.stage c.handle p)
    (hBefore : (f.stage c.handle).Inside)
    (hInside : p.Inside)
    (hPermits : g.permits = f.permits)
    (hOwner : g.owner = f.owner)
    (hMatcher : g.matcher.stopped = f.matcher.stopped)
    (hRunning : p.Working → f.matcher.stopped = false)
    (hPassed :
      ∀ h, h ≠ c.handle → (h ∈ g.passed ↔ h ∈ f.passed))
    (hWorks : p.Working → c.handle ∈ g.passed)
    (hOut :
      c.handle ∉ g.passed →
        ∀ answer,
          p = .ready answer → answer = c.request.turnedAway)
    (hTold : ∀ h, h ≠ c.handle → g.toldBy h = f.toldBy h)
    (hTells : g.toldBy c.handle ++ p.untold = p.due) :
    g.Orderly visitors := by
  refine
    hOrderly.advance hDistinct hVisitor hStage ?_ ?_ ?_
      (hOrderly.running_advance hStage hMatcher hRunning)
      hPassed hWorks (fun _ => .inl hInside) ?_ hTold hTells
      (fun hAlone => absurd hAlone hInside.not_alone)
  · intro h
    rw [hPermits]
    by_cases hSame : h = c.handle
    · rw [if_pos hSame, hSame, hOrderly.permits]
      exact iff_of_true hBefore hInside
    · rw [if_neg hSame]
  · intro h
    rw [hOwner]
    by_cases hSame : h = c.handle
    · rw [if_pos hSame, hSame, hOrderly.owner]
      exact iff_of_false hBefore.not_alone hInside.not_alone
    · rw [if_neg hSame]
  · rw [hOwner, hPermits]
    exact hOrderly.apart
  · rintro hFresh answer (hReady | hDone)
    · exact hOut hFresh answer hReady
    · rw [hDone] at hInside
      simp [Stage.Inside, Stage.Working] at hInside

/- One call that has returned, and its permit or the gate. -/
theorem Orderly.advance_done
    {visitors : List Visitor}
    {f g : Traffic}
    {c : Visitor}
    {answer : Answer}
    (hOrderly : f.Orderly visitors)
    (hDistinct : (visitors.map Visitor.handle).Nodup)
    (hVisitor : c ∈ visitors)
    (hStage :
      g.stage = Function.update f.stage c.handle (.done answer))
    (hPermits :
      ∀ h, h ∈ g.permits ↔ h ≠ c.handle ∧ h ∈ f.permits)
    (hOwner :
      ∀ h,
        g.owner = some h ↔ h ≠ c.handle ∧ f.owner = some h)
    (hMatcher : g.matcher = f.matcher)
    (hPassed : g.passed = f.passed)
    (hOut :
      c.handle ∉ f.passed → answer = c.request.turnedAway)
    (hTold : g.told = f.told)
    (hTells : f.toldBy c.handle = answer.notifications) :
    g.Orderly visitors := by
  have hSaid : ∀ h, g.toldBy h = f.toldBy h := by
    intro h
    rw [toldBy, hTold]
    rfl
  refine
    hOrderly.advance hDistinct hVisitor hStage ?_ ?_ ?_
      (hOrderly.running_advance hStage (by rw [hMatcher])
        False.elim)
      (fun h _ => by rw [hPassed]) False.elim
      (fun _ => .inr ⟨answer, rfl⟩) ?_ (fun h _ => hSaid h) ?_
      (by simp [Stage.Alone])
  · intro h
    rw [hPermits]
    by_cases hSame : h = c.handle <;>
      simp [hSame, Stage.Inside, Stage.Working]
  · intro h
    rw [hOwner]
    by_cases hSame : h = c.handle <;>
      simp [hSame, Stage.Alone]
  · intro hOwned
    rcases Option.ne_none_iff_exists'.mp hOwned with ⟨h, hSome⟩
    have hBefore := hOrderly.apart
      (by rw [((hOwner h).mp hSome).2]; exact Option.some_ne_none h)
    rw [Finset.eq_empty_iff_forall_notMem]
    intro x hMem
    have hOld := ((hPermits x).mp hMem).2
    rw [hBefore] at hOld
    exact Finset.notMem_empty x hOld
  · rintro hFresh a (hReady | hDone)
    · cases hReady
    · cases hDone
      exact hOut (hPassed ▸ hFresh)
  · rw [hSaid, hTells]
    exact List.append_nil _

/- Nobody has a permit beside one who has the gate alone. -/
theorem Orderly.of_alone
    {visitors : List Visitor}
    {f : Traffic}
    {h : String}
    (hOrderly : f.Orderly visitors)
    (hAlone : (f.stage h).Alone) :
    f.owner = some h ∧ f.permits = ∅ := by
  have hOwner := (hOrderly.owner h).mpr hAlone
  exact ⟨hOwner, hOrderly.apart (hOwner ▸ Option.some_ne_none h)⟩

/- A call that gives the gate back. -/
theorem Orderly.reopen
    {visitors : List Visitor}
    {f : Traffic}
    {c : Visitor}
    (hOrderly : f.Orderly visitors)
    (hDistinct : (visitors.map Visitor.handle).Nodup)
    (hVisitor : c ∈ visitors)
    (hRequest : c.request = .stop)
    (hAlone : (f.stage c.handle).Alone) :
    Orderly visitors
      { f.advance c (.done .stop) with owner := none } := by
  rcases hOrderly.of_alone hAlone with ⟨hOwner, hEmpty⟩
  have hTold : f.toldBy c.handle = [] := by
    have hBefore := hOrderly.told c.handle
    rcases hAlone with hStage | hStage <;>
      · rw [hStage] at hBefore
        exact (List.append_nil _).symm.trans hBefore
  refine
    hOrderly.advance_done hDistinct hVisitor rfl ?_ ?_ rfl rfl
      ?_ rfl hTold
  · intro h
    simp [Traffic.advance, hEmpty]
  · intro h
    simp only [reduceCtorEq, false_iff, not_and, hOwner]
    exact fun hNe hSame => hNe (Option.some.inj hSame).symm
  · intro _
    rw [hRequest]
    rfl

/- Every step keeps the order at the gate. -/
theorem Step.orderly
    {visitors : List Visitor}
    {f g : Traffic}
    (hDistinct : (visitors.map Visitor.handle).Nodup)
    (hStep : Step visitors f g)
    (hOrderly : f.Orderly visitors) :
    g.Orderly visitors := by
  cases hStep with
  | @come c hVisitor hRequest hStage hOpen =>
      have hTold := hOrderly.told c.handle
      rw [hStage] at hTold
      refine
        hOrderly.advance hDistinct hVisitor rfl ?_ ?_ ?_
          (hOrderly.running_advance rfl rfl False.elim)
          (fun _ _ => Iff.rfl) False.elim (fun _ => .inl (.inl rfl))
          ?_ (fun _ _ => rfl) hTold (by simp [Stage.Alone])
      · intro h
        by_cases hSame : h = c.handle <;>
          simp [hSame, Stage.Inside]
      · intro h
        by_cases hSame : h = c.handle <;>
          simp [hSame, Stage.Alone, Traffic.advance, hOpen]
      · exact fun hOwner => absurd hOpen hOwner
      · rintro _ answer (hReady | hDone)
        · cases hReady
        · cases hDone
  | @turnAway c hVisitor hStage hStopped =>
      have hTold := hOrderly.told c.handle
      rw [hStage] at hTold
      refine
        hOrderly.advance_inside hDistinct hVisitor rfl
          (hStage ▸ .inl rfl) (.inr (.inr ⟨_, rfl⟩)) rfl rfl rfl
          False.elim (fun _ _ => Iff.rfl) False.elim ?_
          (fun _ _ => rfl) ?_
      · intro _ answer hReady
        exact (Stage.ready.inj hReady).symm
      · change _ = c.request.turnedAway.notifications
        rw [c.request.notifications_turnedAway]
        exact hTold
  | @pass c hVisitor hStage hRuns =>
      have hTold := hOrderly.told c.handle
      rw [hStage] at hTold
      refine
        hOrderly.advance_inside hDistinct hVisitor rfl
          (hStage ▸ .inl rfl) (.inr (.inl trivial)) rfl rfl rfl
          (fun _ => hRuns) ?_
          (fun _ => Finset.mem_insert_self _ _) ?_
          (fun _ _ => rfl) hTold
      · intro h hNe
        simp [hNe]
      · exact fun hFresh =>
          absurd (Finset.mem_insert_self _ _) hFresh
  | @proceed c said w hVisitor hProceeds =>
      rcases hProceeds.stages with ⟨hWorking, hAfter⟩
      have hRuns := hOrderly.running c.handle hWorking
      have hKnown := hOrderly.working c.handle hWorking
      refine
        hOrderly.advance_inside hDistinct hVisitor rfl
          hWorking.inside ?_ rfl rfl hProceeds.stopped_eq
          (fun _ => hRuns) (fun _ _ => Iff.rfl)
          (fun _ => hKnown) (fun hFresh => absurd hKnown hFresh)
          ?_ ?_
      · rcases hAfter with hWorks | hReady
        · exact hWorks.inside
        · exact .inr (.inr hReady)
      · intro h hNe
        simp [toldBy, Ne.symm hNe, List.filter_map,
          Function.comp_def]
      · have hTold :=
          hProceeds.untold (hOrderly.told c.handle)
        simpa [toldBy, List.filter_map, Function.comp_def]
          using hTold
  | @leave c answer hVisitor hStage =>
      have hTold := hOrderly.told c.handle
      rw [hStage] at hTold
      have hInside : (f.stage c.handle).Inside :=
        hStage ▸ .inr (.inr ⟨answer, rfl⟩)
      refine
        hOrderly.advance_done hDistinct hVisitor rfl ?_ ?_ rfl
          rfl ?_ rfl ((List.append_nil _).symm.trans hTold)
      · exact fun h => Finset.mem_erase
      · intro h
        refine ⟨fun hSome => ⟨?_, hSome⟩, And.right⟩
        intro hSame
        exact hInside.not_alone
          ((hOrderly.owner _).mp (hSame ▸ hSome))
      · exact fun hFresh =>
          hOrderly.others c hVisitor hFresh answer (.inl hStage)
  | @close c hVisitor hRequest hStage hOpen hEmpty =>
      have hTold := hOrderly.told c.handle
      rw [hStage] at hTold
      refine
        hOrderly.advance hDistinct hVisitor rfl ?_ ?_
          (fun _ => hEmpty)
          (hOrderly.running_advance rfl rfl False.elim)
          (fun _ _ => Iff.rfl) False.elim ?_ ?_ (fun _ _ => rfl)
          hTold (fun _ => hRequest)
      · intro h
        by_cases hSame : h = c.handle <;>
          simp [hSame, Stage.Inside, Stage.Working,
            Traffic.advance, hEmpty]
      · intro h
        by_cases hSame : h = c.handle
        · simp [hSame, Stage.Alone]
        · simp [hSame, hOpen, Ne.symm hSame]
      · intro hMem
        have hBefore := hOrderly.passed c.handle hMem
        rw [hStage] at hBefore
        simp [Stage.Inside, Stage.Working, Stage.Ended]
          at hBefore
      · rintro _ answer (hReady | hDone)
        · cases hReady
        · cases hDone
  | @mark c hVisitor hRequest hStage hRuns =>
      have hTold := hOrderly.told c.handle
      rw [hStage] at hTold
      have hAlone : (f.stage c.handle).Alone := hStage ▸ .inl rfl
      rcases hOrderly.of_alone hAlone with ⟨hOwner, hEmpty⟩
      refine
        hOrderly.advance hDistinct hVisitor rfl ?_ ?_
          (fun _ => hEmpty) ?_ (fun _ _ => Iff.rfl) False.elim ?_ ?_
          (fun _ _ => rfl) hTold (fun _ => hRequest)
      · intro h
        by_cases hSame : h = c.handle <;>
          simp [hSame, Stage.Inside, Stage.Working,
            Traffic.advance, hEmpty]
      · intro h
        by_cases hSame : h = c.handle
        · simp [hSame, Stage.Alone, Traffic.advance, hOwner]
        · simp [hSame, Traffic.advance]
      · intro h hWorking
        have hInside : (f.stage h).Inside := by
          by_cases hSame : h = c.handle
          · simp [hSame, Traffic.advance, Stage.Working]
              at hWorking
          · simp only [Traffic.advance,
              Function.update_of_ne hSame] at hWorking
            exact hWorking.inside
        have hMem := (hOrderly.permits h).mpr hInside
        rw [hEmpty] at hMem
        exact absurd hMem (Finset.notMem_empty h)
      · intro hMem
        have hBefore := hOrderly.passed c.handle hMem
        rw [hStage] at hBefore
        simp [Stage.Inside, Stage.Working, Stage.Ended]
          at hBefore
      · rintro _ answer (hReady | hDone)
        · cases hReady
        · cases hDone
  | again hVisitor hRequest hStage hStopped =>
      exact
        hOrderly.reopen hDistinct hVisitor hRequest
          (hStage ▸ .inl rfl)
  | reopen hVisitor hRequest hStage =>
      exact
        hOrderly.reopen hDistinct hVisitor hRequest
          (hStage ▸ .inr rfl)

theorem Reachable.orderly
    {visitors : List Visitor}
    {m : Matcher}
    {l : KeyedLock}
    {f : Traffic}
    (hReachable : Reachable visitors m l f)
    (hDistinct : (visitors.map Visitor.handle).Nodup) :
    f.Orderly visitors := by
  induction hReachable with
  | start => exact orderly_begin visitors m l
  | step _ hStep ih => exact hStep.orderly hDistinct ih

------------------------------------------------------------
-- What a call that stops the matcher leaves
------------------------------------------------------------

/-
  Whether the calls that stop the matcher never have a permit
  beside others, and have stopped it once they have closed the
  gate, also when they have returned.
-/
def Marked
    (visitors : List Visitor)
    (f : Traffic) : Prop :=
  ∀ c ∈ visitors,
    c.request = .stop →
      ¬ (f.stage c.handle).Inside
        ∧ ((f.stage c.handle).Past → f.matcher.stopped = true)

/- No step makes a stopped matcher run again. -/
theorem Step.stopped_of_stopped
    {visitors : List Visitor}
    {f g : Traffic}
    (hStep : Step visitors f g)
    (hStopped : f.matcher.stopped = true) :
    g.matcher.stopped = true := by
  cases hStep with
  | proceed hVisitor hProceeds =>
      exact hProceeds.stopped_eq.trans hStopped
  | mark => rfl
  | _ => exact hStopped

/-
  One call that has come further: it is enough to look at it
  alone, and only if it stops the matcher.
-/
theorem Marked.advance
    {visitors : List Visitor}
    {f g : Traffic}
    {c : Visitor}
    {p : Stage}
    (hMarked : f.Marked visitors)
    (hDistinct : (visitors.map Visitor.handle).Nodup)
    (hVisitor : c ∈ visitors)
    (hStep : Step visitors f g)
    (hStage : g.stage = Function.update f.stage c.handle p)
    (hOwn :
      c.request = .stop →
        ¬ p.Inside ∧ (p.Past → g.matcher.stopped = true)) :
    g.Marked visitors := by
  intro d hMem hRequest
  rw [hStage]
  by_cases hSame : d.handle = c.handle
  · have hEq : d = c :=
      List.inj_on_of_nodup_map hDistinct hMem hVisitor hSame
    subst hEq
    rw [Function.update_self]
    exact hOwn hRequest
  · rw [Function.update_of_ne hSame]
    rcases hMarked d hMem hRequest with ⟨hOutside, hPast⟩
    exact
      ⟨hOutside, fun h => hStep.stopped_of_stopped (hPast h)⟩

/-
  Only the calls that stop the matcher have the gate for
  themselves; they close it when they have marked the matcher,
  or find it marked and leave.
-/
theorem Step.marked
    {visitors : List Visitor}
    {f g : Traffic}
    (hDistinct : (visitors.map Visitor.handle).Nodup)
    (hStep : Step visitors f g)
    (hMarked : f.Marked visitors) :
    g.Marked visitors := by
  -- A call with a permit does not stop the matcher.
  have hOther :
      ∀ {c : Visitor} {P : Prop},
        c ∈ visitors →
          (f.stage c.handle).Inside → c.request = .stop → P :=
    fun hVisitor hInside hRequest =>
      absurd hInside (hMarked _ hVisitor hRequest).1
  cases hStep with
  | come hVisitor hRequest hStage hOpen =>
      exact
        hMarked.advance hDistinct hVisitor
          (.come hVisitor hRequest hStage hOpen) rfl
          (fun hStop => absurd hStop hRequest)
  | turnAway hVisitor hStage hStopped =>
      exact
        hMarked.advance hDistinct hVisitor
          (.turnAway hVisitor hStage hStopped) rfl
          (hOther hVisitor (hStage ▸ .inl rfl))
  | pass hVisitor hStage hRuns =>
      exact
        hMarked.advance hDistinct hVisitor
          (.pass hVisitor hStage hRuns) rfl
          (hOther hVisitor (hStage ▸ .inl rfl))
  | proceed hVisitor hProceeds =>
      exact
        hMarked.advance hDistinct hVisitor
          (.proceed hVisitor hProceeds) rfl
          (hOther hVisitor hProceeds.stages.1.inside)
  | leave hVisitor hStage =>
      exact
        hMarked.advance hDistinct hVisitor
          (.leave hVisitor hStage) rfl
          (hOther hVisitor (hStage ▸ .inr (.inr ⟨_, rfl⟩)))
  | close hVisitor hRequest hStage hOpen hEmpty =>
      refine
        hMarked.advance hDistinct hVisitor
          (.close hVisitor hRequest hStage hOpen hEmpty) rfl
          (fun _ => ⟨?_, ?_⟩)
      · simp [Stage.Inside, Stage.Working]
      · simp [Stage.Past, Stage.Ended]
  | mark hVisitor hRequest hStage hRuns =>
      refine
        hMarked.advance hDistinct hVisitor
          (.mark hVisitor hRequest hStage hRuns) rfl
          (fun _ => ⟨?_, fun _ => rfl⟩)
      simp [Stage.Inside, Stage.Working]
  | again hVisitor hRequest hStage hStopped =>
      refine
        hMarked.advance hDistinct hVisitor
          (.again hVisitor hRequest hStage hStopped) rfl
          (fun _ => ⟨?_, fun _ => hStopped⟩)
      simp [Stage.Inside, Stage.Working]
  | reopen hVisitor hRequest hStage =>
      have hStopped :=
        (hMarked _ hVisitor hRequest).2 (.inl hStage)
      refine
        hMarked.advance hDistinct hVisitor
          (.reopen hVisitor hRequest hStage) rfl
          (fun _ => ⟨?_, fun _ => hStopped⟩)
      simp [Stage.Inside, Stage.Working]

theorem Reachable.marked
    {visitors : List Visitor}
    {m : Matcher}
    {l : KeyedLock}
    {f : Traffic}
    (hReachable : Reachable visitors m l f)
    (hDistinct : (visitors.map Visitor.handle).Nodup) :
    f.Marked visitors := by
  induction hReachable with
  | start =>
      intro c _ _
      simp [begin, Stage.Inside, Stage.Working, Stage.Past,
        Stage.Ended]
  | step _ hStep ih => exact hStep.marked hDistinct ih

------------------------------------------------------------
-- The cut
------------------------------------------------------------

/- Only a call that has the gate for itself stops the matcher. -/
theorem Step.of_marks
    {visitors : List Visitor}
    {f g : Traffic}
    (hStep : Step visitors f g)
    (hRuns : f.matcher.stopped = false)
    (hStopped : g.matcher.stopped = true) :
    ∃ c ∈ visitors,
      c.request = .stop
        ∧ f.stage c.handle = .closing
        ∧ g.stage c.handle = .closed := by
  have hSame :
      g.matcher.stopped = f.matcher.stopped → False := by
    intro hEq
    rw [hEq, hRuns] at hStopped
    cases hStopped
  cases hStep with
  | @mark c hVisitor hRequest hStage hRuns =>
      exact
        ⟨c, hVisitor, hRequest, hStage,
          Function.update_self _ _ _⟩
  | proceed hVisitor hProceeds =>
      exact (hSame hProceeds.stopped_eq).elim
  | _ => exact (hSame rfl).elim

/-
  While a call has the gate for itself, each call that has
  found the matcher running has returned and told what was
  due.
-/
theorem Orderly.ended_of_alone
    {visitors : List Visitor}
    {f : Traffic}
    {h own : String}
    (hOrderly : f.Orderly visitors)
    (hAlone : (f.stage own).Alone)
    (hPassed : h ∈ f.passed) :
    ∃ answer,
      f.stage h = .done answer
        ∧ f.toldBy h = answer.notifications := by
  have hEmpty := (hOrderly.of_alone hAlone).2
  rcases hOrderly.passed h hPassed with
    hInside | ⟨answer, hDone⟩
  · have hMem := (hOrderly.permits h).mpr hInside
    rw [hEmpty] at hMem
    exact absurd hMem (Finset.notMem_empty h)
  · have hTold := hOrderly.told h
    rw [hDone] at hTold
    exact
      ⟨answer, hDone, (List.append_nil _).symm.trans hTold⟩

/-
  Where the matcher is stopped, a step changes nothing in it,
  tells nothing, and leaves less to do.
-/
theorem Step.of_stopped
    {visitors : List Visitor}
    {f g : Traffic}
    (hStep : Step visitors f g)
    (hOrderly : f.Orderly visitors)
    (hStopped : f.matcher.stopped = true) :
    g.matcher = f.matcher
      ∧ g.told = f.told
      ∧ g.passed = f.passed
      ∧ ∃ c ∈ visitors, ∃ p : Stage,
        g.stage = Function.update f.stage c.handle p
          ∧ p.left < (f.stage c.handle).left := by
  have hNot : ∀ h, ¬ (f.stage h).Working := by
    intro h hWorking
    have hRuns := hOrderly.running h hWorking
    rw [hStopped] at hRuns
    cases hRuns
  cases hStep with
  | come hVisitor hRequest hStage hOpen =>
      exact
        ⟨rfl, rfl, rfl, _, hVisitor, _, rfl,
          by simp [hStage, Stage.left]⟩
  | turnAway hVisitor hStage =>
      exact
        ⟨rfl, rfl, rfl, _, hVisitor, _, rfl,
          by simp [hStage, Stage.left]⟩
  | pass hVisitor hStage hRuns =>
      rw [hStopped] at hRuns
      cases hRuns
  | @proceed c said w hVisitor hProceeds =>
      exact absurd hProceeds.stages.1 (hNot c.handle)
  | leave hVisitor hStage =>
      exact
        ⟨rfl, rfl, rfl, _, hVisitor, _, rfl,
          by simp [hStage, Stage.left]⟩
  | close hVisitor hRequest hStage hOpen hEmpty =>
      exact
        ⟨rfl, rfl, rfl, _, hVisitor, _, rfl,
          by simp [hStage, Stage.left]⟩
  | mark hVisitor hRequest hStage hRuns =>
      rw [hStopped] at hRuns
      cases hRuns
  | again hVisitor hRequest hStage =>
      exact
        ⟨rfl, rfl, rfl, _, hVisitor, _, rfl,
          by simp [hStage, Stage.left]⟩
  | reopen hVisitor hRequest hStage =>
      exact
        ⟨rfl, rfl, rfl, _, hVisitor, _, rfl,
          by simp [hStage, Stage.left]⟩

/- How many steps are left for the calls after the cut. -/
def left
    (visitors : List Visitor)
    (f : Traffic) : Nat :=
  (visitors.map fun c => (f.stage c.handle).left).sum

/-
  Where the matcher is stopped, some call can go on while not
  all have returned: one that has the gate for itself, one
  that has a permit, or else one that comes to the gate.
-/
theorem Orderly.exists_step
    {visitors : List Visitor}
    {f : Traffic}
    {c : Visitor}
    (hOrderly : f.Orderly visitors)
    (hStopped : f.matcher.stopped = true)
    (hVisitor : c ∈ visitors)
    (hUnfinished : ¬ (f.stage c.handle).Ended) :
    ∃ g, Step visitors f g := by
  by_cases hOpen : f.owner = none
  · by_cases hEmpty : f.permits = ∅
    · -- Nobody is at the gate, so the call itself can come.
      cases hStage : f.stage c.handle with
      | outside =>
          by_cases hRequest : c.request = .stop
          · exact
              ⟨_, .close hVisitor hRequest hStage hOpen hEmpty⟩
          · exact ⟨_, .come hVisitor hRequest hStage hOpen⟩
      | done answer => exact absurd ⟨answer, hStage⟩ hUnfinished
      | closing =>
          have hAlone : (f.stage c.handle).Alone :=
            hStage ▸ .inl rfl
          have hOwner := (hOrderly.of_alone hAlone).1
          rw [hOpen] at hOwner
          cases hOwner
      | closed =>
          have hAlone : (f.stage c.handle).Alone :=
            hStage ▸ .inr rfl
          have hOwner := (hOrderly.of_alone hAlone).1
          rw [hOpen] at hOwner
          cases hOwner
      | _ =>
          have hMem :=
            (hOrderly.permits c.handle).mpr
              (by simp [hStage, Stage.Inside, Stage.Working])
          rw [hEmpty] at hMem
          exact absurd hMem (Finset.notMem_empty _)
    · rcases Finset.nonempty_iff_ne_empty.mpr hEmpty with
        ⟨h, hMem⟩
      have hInside := (hOrderly.permits h).mp hMem
      have hMoved : f.stage h ≠ .outside := by
        intro hOut
        simp [hOut, Stage.Inside, Stage.Working] at hInside
      rcases hOrderly.known h hMoved with ⟨d, hOther, rfl⟩
      rcases hInside with hIn | hWorking | ⟨answer, hReady⟩
      · exact ⟨_, .turnAway hOther hIn hStopped⟩
      · have hRuns := hOrderly.running d.handle hWorking
        rw [hStopped] at hRuns
        cases hRuns
      · exact ⟨_, .leave hOther hReady⟩
  · rcases Option.ne_none_iff_exists'.mp hOpen with ⟨h, hOwner⟩
    have hAlone := (hOrderly.owner h).mp hOwner
    have hMoved : f.stage h ≠ .outside := by
      intro hOut
      simp [hOut, Stage.Alone] at hAlone
    rcases hOrderly.known h hMoved with ⟨d, hOther, rfl⟩
    have hRequest := hOrderly.stops d hOther hAlone
    rcases hAlone with hClosing | hClosed
    · exact ⟨_, .again hOther hRequest hClosing hStopped⟩
    · exact ⟨_, .reopen hOther hRequest hClosed⟩

/- Where the matcher is stopped, no steps change anything. -/
theorem Orderly.of_stopped
    {visitors : List Visitor}
    {f g : Traffic}
    (hOrderly : f.Orderly visitors)
    (hDistinct : (visitors.map Visitor.handle).Nodup)
    (hStopped : f.matcher.stopped = true)
    (hSteps : Relation.ReflTransGen (Step visitors) f g) :
    g.Orderly visitors
      ∧ g.matcher = f.matcher
      ∧ g.told = f.told
      ∧ g.passed = f.passed := by
  induction hSteps with
  | refl => exact ⟨hOrderly, rfl, rfl, rfl⟩
  | tail _ hStep ih =>
      rcases ih with ⟨hOrder, hMatcher, hTold, hPassed⟩
      rcases hStep.of_stopped hOrder (hMatcher ▸ hStopped) with
        ⟨hSame, hSaid, hKept, -⟩
      exact
        ⟨hStep.orderly hDistinct hOrder, hSame.trans hMatcher,
          hSaid.trans hTold, hKept.trans hPassed⟩

/-
  Calls of the matcher and calls that stop it, in flight at
  once, whose steps are made in any order.
    * Only a call that stops the matcher and has the gate for
      itself marks the matcher as stopped. At this step each
      call that has found the matcher running has returned,
      and has told each of its notifications.
    * A call that stops the matcher and has closed the gate,
      or has returned, leaves the matcher stopped, there and
      whatever steps follow.
    * Where the matcher is stopped, whatever steps are made,
      it stays as it is with its entries and its tasks, and
      nothing is told, also when it is stopped again; each
      other call that returns is turned away, whatever it
      asks, as the matcher alone does; and there are steps
      until all calls have returned, of which each leaves
      less to do.
-/
theorem Reachable.clean_cut
    {visitors : List Visitor}
    {m : Matcher}
    {l : KeyedLock}
    {f : Traffic}
    (hReachable : Reachable visitors m l f)
    (hDistinct : (visitors.map Visitor.handle).Nodup) :
    (∀ g,
        Step visitors f g →
          f.matcher.stopped = false →
            g.matcher.stopped = true →
              (∃ c ∈ visitors,
                  c.request = .stop
                    ∧ f.stage c.handle = .closing
                    ∧ g.stage c.handle = .closed)
                ∧ ∀ h ∈ f.passed,
                  ∃ answer,
                    f.stage h = .done answer
                      ∧ f.toldBy h = answer.notifications)
      ∧ (∀ c ∈ visitors,
        c.request = .stop →
          (f.stage c.handle = .closed
              ∨ ∃ answer, f.stage c.handle = .done answer) →
            ∀ g,
              Relation.ReflTransGen (Step visitors) f g →
                g.matcher.stopped = true)
      ∧ (f.matcher.stopped = true →
        ∀ g,
          Relation.ReflTransGen (Step visitors) f g →
            g.matcher = f.matcher
              ∧ g.told = f.told
              ∧ (∀ c ∈ visitors,
                c.handle ∉ f.passed →
                  ∀ answer,
                    g.stage c.handle = .done answer →
                      answer = c.request.turnedAway)
              ∧ (∀ now r,
                Request.answered now g.matcher r
                  = (r.turnedAway, g.matcher))
              ∧ ((∃ c ∈ visitors,
                  ¬ (g.stage c.handle).Ended) →
                ∃ x, Step visitors g x)
              ∧ ∀ x,
                Step visitors g x →
                  x.left visitors < g.left visitors) := by
  have hOrderly := hReachable.orderly hDistinct
  have hMarked := hReachable.marked hDistinct
  refine ⟨?_, ?_, ?_⟩
  · intro g hStep hRuns hStopped
    rcases hStep.of_marks hRuns hStopped with
      ⟨c, hVisitor, hRequest, hClosing, hClosed⟩
    refine ⟨⟨c, hVisitor, hRequest, hClosing, hClosed⟩, ?_⟩
    intro h hPassed
    exact hOrderly.ended_of_alone (.inl hClosing) hPassed
  · intro c hVisitor hRequest hPast g hSteps
    have hStopped := (hMarked c hVisitor hRequest).2 hPast
    induction hSteps with
    | refl => exact hStopped
    | tail _ hStep ih => exact hStep.stopped_of_stopped ih
  · intro hStopped g hSteps
    rcases hOrderly.of_stopped hDistinct hStopped hSteps with
      ⟨hOrder, hMatcher, hTold, hPassed⟩
    have hStays : g.matcher.stopped = true :=
      hMatcher ▸ hStopped
    refine ⟨hMatcher, hTold, ?_, ?_, ?_, ?_⟩
    · intro c hVisitor hFresh answer hDone
      exact
        hOrder.others c hVisitor (hPassed ▸ hFresh) answer
          (.inr hDone)
    · exact fun now r => r.answered_of_stopped now hStays
    · rintro ⟨c, hVisitor, hUnfinished⟩
      exact hOrder.exists_step hStays hVisitor hUnfinished
    · intro x hStep
      rcases hStep.of_stopped hOrder hStays with
        ⟨-, -, -, c, hVisitor, p, hStage, hLess⟩
      rw [left, hStage]
      exact Flight.sum_update_lt hDistinct hVisitor hLess

/-
  The two sides of a message, a call that stops the matcher,
  and an event and a clearing that come late.
-/
def seenVisitors : List Visitor :=
  [⟨"left", .event (.sent seenSent)⟩,
    ⟨"arrived", .event (.received seenReceived)⟩,
    ⟨"stops", .stop⟩,
    ⟨"late", .event (.sent seenSent)⟩,
    ⟨"clears", .clear "journeys"⟩]

/- Its two sides meet in a matcher that begins. -/
theorem handle_seenSides :
    let m : Matcher := .begin 1000 .counted .empty
    (m.handle (.still ⟨1⟩) (.sent seenSent)).1
        = ⟨.ok .pending, []⟩
      ∧ ((m.handle (.still ⟨1⟩) (.sent seenSent)).2.handle
          (.still ⟨1⟩) (.received seenReceived)).1
        = ⟨.ok .matched, [.ofLeg seenSent seenReceived]⟩ := by
  intro m
  have hKey : (Event.sent seenSent).key = .ok Matcher.seenKey :=
    rfl
  have hSame :
      (Event.received seenReceived).key = .ok Matcher.seenKey :=
    rfl
  have hEmpty :
      ∀ n, Pending.text? n Matcher.seenKey m.store = none :=
    fun n => Matcher.Reachable.text?_begin _ _ n _
  exact
    @Matcher.handle_pair (.still ⟨1⟩) m seenSent
      seenReceived (.sent seenSent) (.received seenReceived)
      Matcher.seenKey [] .inOrder rfl hKey hSame
      Event.storable_seenSent hEmpty
      (fun _ hMem => absurd hMem List.not_mem_nil)

/-
  Both sides are matched and return, and then the gate is
  closed, while the matcher still runs.
-/
theorem exists_seenVisitors :
    ∃ f,
      Reachable seenVisitors (.begin 1000 .counted .empty)
          .empty f
        ∧ f.matcher.stopped = false
        ∧ f.stage "stops" = .closing
        ∧ f.passed = {"arrived", "left"}
        ∧ f.stage "arrived"
          = .done
            (.event
              ⟨.ok .matched, [.ofLeg seenSent seenReceived]⟩)
        ∧ f.told
          = [("arrived", .ofLeg seenSent seenReceived)] := by
  let m : Matcher := .begin 1000 .counted .empty
  have hStart : Reachable seenVisitors m .empty (begin m .empty) :=
    .start
  have hLeft :
      ⟨"left", .event (.sent seenSent)⟩ ∈ seenVisitors :=
    List.mem_cons_self
  have hArrived :
      ⟨"arrived", .event (.received seenReceived)⟩
        ∈ seenVisitors :=
    List.mem_cons_of_mem _ List.mem_cons_self
  have hStops : ⟨"stops", .stop⟩ ∈ seenVisitors :=
    List.mem_cons_of_mem _
      (List.mem_cons_of_mem _ List.mem_cons_self)
  rcases exists_answered hLeft (f := begin m .empty) rfl rfl rfl
      KeyedLock.idle_empty (.still ⟨1⟩) with
    ⟨l, g, hIdle, hFirst, hServed, hPassed⟩
  have hWaits :
      g.matcher = (m.handle (.still ⟨1⟩) (.sent seenSent)).2 :=
    hServed.matcher
  have hRuns : g.matcher.stopped = false := by
    rw [hWaits, Matcher.stopped_handle]
    rfl
  have hPermits : g.permits = ∅ := by
    rw [hServed.permits]
    rfl
  have hOutside : g.stage "arrived" = .outside := by
    rw [hServed.stage]
    rfl
  rcases handle_seenSides with ⟨hPending, hMatched⟩
  rw [← hWaits] at hMatched
  have hQuiet : g.told = [] := by
    rw [hServed.told]
    simp [Request.answered, hPending, Answer.notifications,
      m, begin]
  have hStill : g.lock.Idle := by
    rw [hServed.lock]
    exact hIdle
  rcases exists_answered hArrived hOutside hServed.owner
      hPermits hStill (.still ⟨1⟩) with
    ⟨free, x, -, hSecond, hAnswered, hCounted⟩
  have hRunning : x.matcher.stopped = false := by
    rw [hAnswered.matcher]
    exact (g.matcher.stopped_handle _ _).trans hRuns
  have hNobody : x.permits = ∅ := by
    rw [hAnswered.permits, hPermits]
    rfl
  have hFree : x.stage "stops" = .outside := by
    rw [hAnswered.stage, hServed.stage]
    rfl
  have hReachable := (hStart.steps hFirst).steps hSecond
  refine
    ⟨_,
      hReachable.step
        (.close hStops rfl hFree hAnswered.owner hNobody),
      hRunning, rfl, ?_, ?_, ?_⟩
  · have hBoth := hCounted (by simp) hRuns
    rw [hPassed (by simp) rfl] at hBoth
    exact hBoth
  · have hStage :
        x.stage "arrived"
          = .done
            (.event
              (g.matcher.handle (.still ⟨1⟩)
                (.received seenReceived)).1) := by
      rw [hAnswered.stage]
      rfl
    rw [hMatched] at hStage
    exact hStage
  · have hTold := hAnswered.told
    simp only [Request.answered, Answer.notifications, hMatched,
      hQuiet, List.map_cons, List.map_nil, List.nil_append]
      at hTold
    exact hTold

/-
  The two sides are matched and have returned when the matcher
  is stopped; the event and the clearing that come late are
  turned away, and nothing changes any more.
-/
theorem Reachable.clean_cut_seenVisitors :
    ∃ f g,
      Reachable seenVisitors (.begin 1000 .counted .empty)
          .empty f
        ∧ f.matcher.stopped = false
        ∧ f.stage "arrived"
          = .done
            (.event
              ⟨.ok .matched, [.ofLeg seenSent seenReceived]⟩)
        ∧ f.toldBy "arrived" = [.ofLeg seenSent seenReceived]
        ∧ (∃ answer,
          f.stage "left" = .done answer
            ∧ f.toldBy "left" = answer.notifications)
        ∧ Step seenVisitors f g
        ∧ g.stage "stops" = .closed
        ∧ g.matcher.stopped = true
        ∧ ∀ x,
          Relation.ReflTransGen (Step seenVisitors) g x →
            x.matcher.stopped = true
              ∧ x.matcher = g.matcher
              ∧ x.told = g.told
              ∧ (∀ answer,
                x.stage "late" = .done answer →
                  answer = .event (.rejected .stopped))
              ∧ ∀ answer,
                x.stage "clears" = .done answer →
                  answer = .clear (.error .stopped) := by
  have hDistinct :
      (seenVisitors.map Visitor.handle).Nodup := by
    decide
  have hStops : ⟨"stops", .stop⟩ ∈ seenVisitors := by
    simp [seenVisitors]
  have hLate :
      ⟨"late", .event (.sent seenSent)⟩ ∈ seenVisitors := by
    simp [seenVisitors]
  have hClears :
      ⟨"clears", .clear "journeys"⟩ ∈ seenVisitors := by
    simp [seenVisitors]
  rcases exists_seenVisitors with
    ⟨f, hReachable, hRuns, hClosing, hPassed, hDone, hTold⟩
  have hMark := Step.mark hStops rfl hClosing hRuns
  rcases hReachable.clean_cut hDistinct with ⟨hCut, -⟩
  rcases (hReachable.step hMark).clean_cut hDistinct with
    ⟨-, hMarked, hStill⟩
  have hEnded := (hCut _ hMark hRuns rfl).2
  have hFresh :
      ∀ h, h ∉ f.passed ↔ h ≠ "arrived" ∧ h ≠ "left" := by
    intro h
    simp [hPassed]
  have hClosed :
      Function.update f.stage "stops" .closed "stops" = .closed :=
    Function.update_self _ _ _
  refine
    ⟨f, _, hReachable, hRuns, hDone, ?_,
      hEnded "left" (by simp [hPassed]), hMark, hClosed, rfl, ?_⟩
  · simp [toldBy, hTold]
  · intro x hSteps
    rcases hStill rfl x hSteps with
      ⟨hMatcher, hSaid, hOthers, -⟩
    exact
      ⟨hMarked _ hStops rfl (.inl hClosed) x hSteps, hMatcher,
        hSaid,
        hOthers _ hLate ((hFresh _).mpr (by decide)),
        hOthers _ hClears ((hFresh _).mpr (by decide))⟩

end Traffic

end JourneyMatch

import Mathlib.Data.List.Perm.Basic
import JourneyMatch.Proofs.Matcher.Failure
import JourneyMatch.Proofs.Matcher.Flight

/-
  This file compares calls in flight with calls one after the
  other. Whatever the order of the steps, the replies, the
  matcher and the notifications are those of the calls in the
  order in which they ran.

  Key definitions include:
    * `Flight.reply?`
    * `Flight.Traced`
    * `Flight.Finished`
    * `Flight.PairMatched`

  Main statements:
    * `Flight.Step.traced`
    * `Flight.Traced.reply?_eq`
    * `Flight.Reachable.serialized`
-/

namespace JourneyMatch

namespace Flight

------------------------------------------------------------
-- Replies and notifications
------------------------------------------------------------

/- What a call has replied. -/
def reply?
    (c : Call)
    (f : Flight) : Option Reply :=
  (f.phase c.handle).reply?

/- The notifications that a call's reply gives. -/
def notices
    (c : Call)
    (f : Flight) : List Notification :=
  (f.reply? c).toList.flatMap Reply.notifications

/- The notifications that a call has still to emit. -/
def untold
    (c : Call)
    (f : Flight) : List Notification :=
  (f.phase c.handle).untold

/-
  Whether the calls that have run stand in their order, the
  matcher and their replies are as if they had been made one
  after the other, and what was emitted is what they do not
  have to emit any more.
-/
structure Traced
    (now : Readings)
    (calls : List Call)
    (m : Matcher)
    (f : Flight) : Prop where
  nodup : f.entered.Nodup
  mem_iff :
    ∀ c,
      c ∈ f.entered ↔ c ∈ calls ∧ (f.reply? c).isSome = true
  matcher :
    (m.handleAll now (f.entered.map Call.event)).2 = f.matcher
  replies :
    (m.handleAll now (f.entered.map Call.event)).1.map some
      = f.entered.map fun c => f.reply? c
  told :
    (f.emitted ++ f.entered.flatMap fun c => f.untold c).Perm
      (f.entered.flatMap fun c => f.notices c)

theorem traced_begin
    (now : Readings)
    (calls : List Call)
    (m : Matcher)
    (l : KeyedLock) :
    Traced now calls m (begin m l) where
  nodup := List.nodup_nil
  mem_iff c := by
    constructor
    · nofun
    · rintro ⟨-, hSome⟩
      cases hSome
  matcher := rfl
  replies := rfl
  told := List.Perm.refl _

------------------------------------------------------------
-- One step
------------------------------------------------------------

/- A step that no reply and nothing untold is changed by. -/
theorem Traced.of_eq
    {now : Readings}
    {calls : List Call}
    {m : Matcher}
    {f g : Flight}
    (hTraced : Traced now calls m f)
    (hReplies : ∀ c, g.reply? c = f.reply? c)
    (hMatcher : g.matcher = f.matcher)
    (hEntered : g.entered = f.entered)
    (hTold :
      (g.emitted ++ f.entered.flatMap fun c => g.untold c).Perm
        (f.emitted ++ f.entered.flatMap fun c => f.untold c)) :
    Traced now calls m g := by
  refine ⟨?_, ?_, ?_, ?_, ?_⟩
  · rw [hEntered]
    exact hTraced.nodup
  · intro c
    rw [hEntered, hReplies]
    exact hTraced.mem_iff c
  · rw [hEntered, hMatcher]
    exact hTraced.matcher
  · rw [hEntered, hTraced.replies]
    exact List.map_congr_left fun c _ => (hReplies c).symm
  · rw [hEntered]
    refine hTold.trans (hTraced.told.trans ?_)
    simp only [notices, hReplies]
    exact List.Perm.refl _

/- One more call has run, or has been turned away. -/
theorem Traced.enter
    {now : Readings}
    {calls : List Call}
    {m : Matcher}
    {f g : Flight}
    {c : Call}
    {p : Phase}
    (hTraced : Traced now calls m f)
    (hDistinct : (calls.map Call.handle).Nodup)
    (hCall : c ∈ calls)
    (hBefore : f.reply? c = none)
    (hPhase : g.phase = Function.update f.phase c.handle p)
    (hEntered : g.entered = f.entered ++ [c])
    (hEmitted : g.emitted = f.emitted)
    (hMatcher :
      g.matcher = (f.matcher.handle now c.event).2)
    (hReply :
      p.reply? = some (f.matcher.handle now c.event).1)
    (hUntold :
      p.untold
        = (f.matcher.handle now c.event).1.notifications) :
    Traced now calls m g := by
  have hSelf : g.phase c.handle = p := by
    rw [hPhase, Function.update_self]
  have hOther :
      ∀ d ∈ calls, d ≠ c →
        g.phase d.handle = f.phase d.handle := by
    intro d hMem hNe
    rw [hPhase]
    apply Function.update_of_ne
    intro hSame
    exact hNe (eq_of_handle hDistinct hMem hCall hSame)
  have hOld :
      ∀ d ∈ f.entered,
        g.phase d.handle = f.phase d.handle := by
    intro d hMem
    rcases (hTraced.mem_iff d).mp hMem with ⟨hIn, hSome⟩
    apply hOther d hIn
    intro hSame
    rw [hSame, hBefore] at hSome
    cases hSome
  have hNew : c ∉ f.entered := by
    intro hMem
    have hSome := ((hTraced.mem_iff c).mp hMem).2
    rw [hBefore] at hSome
    cases hSome
  have hRun :
      m.handleAll now (g.entered.map Call.event)
        = ((m.handleAll now (f.entered.map Call.event)).1
            ++ [(f.matcher.handle now c.event).1],
          (f.matcher.handle now c.event).2) := by
    rw [hEntered, List.map_append, Matcher.handleAll_append,
      hTraced.matcher]
    rfl
  refine ⟨?_, ?_, ?_, ?_, ?_⟩
  · rw [hEntered, List.nodup_append]
    refine ⟨hTraced.nodup, List.nodup_singleton c, ?_⟩
    intro d hMem e hSingle hSame
    rw [List.mem_singleton.mp hSingle] at hSame
    exact hNew (hSame ▸ hMem)
  · intro d
    rw [hEntered, List.mem_append, List.mem_singleton]
    by_cases hSame : d = c
    · subst hSame
      simp only [reply?, hSelf, hReply, hCall, or_true,
        Option.isSome_some, and_self]
    · simp only [hSame, or_false]
      rw [hTraced.mem_iff d]
      apply and_congr_right
      intro hMem
      rw [reply?, reply?, hOther d hMem hSame]
  · rw [hRun, hMatcher]
  · rw [hRun, hEntered, List.map_append, List.map_append,
      hTraced.replies]
    have hSame :
        (f.entered.map fun d => g.reply? d)
          = f.entered.map fun d => f.reply? d :=
      List.map_congr_left fun d hMem => by
        rw [reply?, reply?, hOld d hMem]
    rw [hSame, List.map_singleton, List.map_singleton, reply?,
      hSelf, hReply]
  · have hKept :
        (f.entered.flatMap fun d => g.untold d)
          = f.entered.flatMap fun d => f.untold d :=
      List.flatMap_congr fun d hMem => by
        rw [untold, untold, hOld d hMem]
    have hSame :
        (f.entered.flatMap fun d => g.notices d)
          = f.entered.flatMap fun d => f.notices d :=
      List.flatMap_congr fun d hMem => by
        rw [notices, notices, reply?, reply?, hOld d hMem]
    rw [hEntered, hEmitted, List.flatMap_append,
      List.flatMap_append, hKept, hSame, ← List.append_assoc]
    refine hTraced.told.append ?_
    simp only [List.flatMap_singleton, untold, notices, reply?,
      hSelf, hUntold, hReply, Option.toList_some]
    exact List.Perm.refl _

/- The notification that one of the calls emits. -/
theorem perm_flatMap_untold
    {calls entered : List Call}
    {f : Flight}
    {c : Call}
    {reply : Reply}
    {notice : Notification}
    {left : List Notification}
    (hDistinct : (calls.map Call.handle).Nodup)
    (hEntered : ∀ d ∈ entered, d ∈ calls)
    (hNodup : entered.Nodup)
    (hMem : c ∈ entered)
    (hPhase :
      f.phase c.handle = .telling reply (notice :: left)) :
    (notice ::
        entered.flatMap
          fun d => (f.advance c (.telling reply left)).untold d).Perm
      (entered.flatMap fun d => f.untold d) := by
  rcases List.append_of_mem hMem with ⟨before, after, hSplit⟩
  subst hSplit
  have hSelf :
      (f.advance c (.telling reply left)).untold c = left := by
    simp only [untold, advance, Function.update_self,
      Phase.untold]
  have hOthers :
      ∀ d ∈ before ++ after,
        (f.advance c (.telling reply left)).untold d
          = f.untold d := by
    intro d hIn
    have hNe : d ≠ c := by
      intro hSame
      subst hSame
      rw [List.nodup_middle, List.nodup_cons] at hNodup
      exact hNodup.1 hIn
    have hHandle : d.handle ≠ c.handle := by
      intro hSame
      apply hNe
      refine eq_of_handle hDistinct (hEntered d ?_)
        (hEntered c hMem) hSame
      rcases List.mem_append.mp hIn with hLeft | hRight
      · exact List.mem_append_left _ hLeft
      · exact List.mem_append_right _
          (List.mem_cons_of_mem c hRight)
    simp only [untold, advance, Function.update_of_ne hHandle]
  have hBefore :
      (before.flatMap fun d =>
          (f.advance c (.telling reply left)).untold d)
        = before.flatMap fun d => f.untold d :=
    List.flatMap_congr fun d hIn =>
      hOthers d (List.mem_append_left _ hIn)
  have hAfter :
      (after.flatMap fun d =>
          (f.advance c (.telling reply left)).untold d)
        = after.flatMap fun d => f.untold d :=
    List.flatMap_congr fun d hIn =>
      hOthers d (List.mem_append_right _ hIn)
  have hFirst : f.untold c = notice :: left := by
    rw [untold, hPhase]
    rfl
  rw [List.flatMap_append, List.flatMap_append,
    List.flatMap_cons, List.flatMap_cons, hBefore, hAfter,
    hSelf, hFirst, List.cons_append]
  exact List.perm_middle.symm

/- A call that comes further without anything to be seen. -/
theorem Traced.quiet
    {now : Readings}
    {calls : List Call}
    {m : Matcher}
    {f g : Flight}
    {c : Call}
    {p : Phase}
    (hTraced : Traced now calls m f)
    (hReply : p.reply? = (f.phase c.handle).reply?)
    (hUntold : p.untold = (f.phase c.handle).untold)
    (hPhase : g.phase = Function.update f.phase c.handle p)
    (hMatcher : g.matcher = f.matcher)
    (hEntered : g.entered = f.entered)
    (hEmitted : g.emitted = f.emitted) :
    Traced now calls m g := by
  have hLook :
      ∀ {α : Type} (look : Phase → α),
        look p = look (f.phase c.handle) →
          ∀ handle,
            look (g.phase handle) = look (f.phase handle) := by
    intro α look hSame handle
    rw [hPhase]
    by_cases hHandle : handle = c.handle
    · rw [hHandle, Function.update_self, hSame]
    · rw [Function.update_of_ne hHandle]
  refine hTraced.of_eq
    (fun d => hLook Phase.reply? hReply d.handle)
    hMatcher hEntered ?_
  have hKept :
      (f.entered.flatMap fun d => g.untold d)
        = f.entered.flatMap fun d => f.untold d :=
    List.flatMap_congr fun d _ =>
      hLook Phase.untold hUntold d.handle
  rw [hKept, hEmitted]

/- Every step keeps up with calls one after the other. -/
theorem Step.traced
    {now : Readings}
    {calls : List Call}
    {m : Matcher}
    {f g : Flight}
    (hDistinct : (calls.map Call.handle).Nodup)
    (hStep : Step now calls f g)
    (hLocked : f.Locked calls)
    (hTraced : Traced now calls m f) :
    Traced now calls m g := by
  cases hStep with
  | @reject c reason hCall hPhase hGate =>
      have hHandle :=
        Matcher.handle_of_gate_error now hGate
      refine hTraced.enter hDistinct hCall
        (by rw [reply?, hPhase]; rfl) rfl rfl rfl ?_ ?_ ?_
      · rw [hHandle]
        rfl
      · rw [hHandle]
        rfl
      · rw [hHandle]
        rfl
  | @pass c key hCall hPhase hGate =>
      exact hTraced.quiet (by rw [hPhase]; rfl)
        (by rw [hPhase]; rfl) rfl rfl rfl rfl
  | @ask c key hCall hPhase =>
      exact hTraced.quiet (by rw [hPhase]; rfl)
        (by rw [hPhase]; rfl) rfl rfl rfl rfl
  | @enter c key hCall hPhase hHeld =>
      have hKey := (hLocked.of_asked hCall hPhase).1
      have hHandle :=
        Matcher.handle_of_key now hLocked.running hKey
      refine hTraced.enter hDistinct hCall
        (by rw [reply?, hPhase]; rfl) rfl rfl rfl ?_ ?_ ?_
      · rw [hHandle]
      · rw [hHandle]
        rfl
      · rw [hHandle]
        rfl
  | @release c reply hCall hPhase =>
      exact hTraced.quiet (by rw [hPhase]; rfl)
        (by rw [hPhase]; rfl) rfl rfl rfl rfl
  | @emit c reply notice left hCall hPhase =>
      have hMem : c ∈ f.entered := by
        rw [hTraced.mem_iff, reply?, hPhase]
        exact ⟨hCall, rfl⟩
      have hPerm :=
        perm_flatMap_untold hDistinct
          (fun d hIn => ((hTraced.mem_iff d).mp hIn).1)
          hTraced.nodup hMem hPhase
      refine hTraced.of_eq ?_ rfl rfl ?_
      · intro d
        simp only [reply?, advance]
        by_cases hHandle : d.handle = c.handle
        · rw [hHandle, Function.update_self, hPhase]
          rfl
        · rw [Function.update_of_ne hHandle]
      · rw [List.append_assoc, List.singleton_append]
        exact hPerm.append_left f.emitted
  | @finish c reply hCall hPhase =>
      exact hTraced.quiet (by rw [hPhase]; rfl)
        (by rw [hPhase]; rfl) rfl rfl rfl rfl

theorem Reachable.traced
    {now : Readings}
    {calls : List Call}
    {m : Matcher}
    {l : KeyedLock}
    {f : Flight}
    (hReachable : Reachable now calls m l f)
    (hDistinct : (calls.map Call.handle).Nodup)
    (hRuns : m.stopped = false)
    (hIdle : l.Idle) :
    Traced now calls m f := by
  induction hReachable with
  | start => exact traced_begin now calls m l
  | step hBefore hStep ih =>
      exact hStep.traced hDistinct
        (hBefore.locked hDistinct hRuns hIdle) ih

------------------------------------------------------------
-- Calls that have ended
------------------------------------------------------------

/- A call replies what it would after those that ran before. -/
theorem Traced.reply?_eq
    {now : Readings}
    {calls : List Call}
    {m : Matcher}
    {f : Flight}
    {c : Call}
    {before after : List Call}
    (hTraced : Traced now calls m f)
    (hEntered : f.entered = before ++ c :: after) :
    f.reply? c
      = some
        (((m.handleAll now (before.map Call.event)).2.handle
          now c.event).1) := by
  have hReplies := hTraced.replies
  rw [hEntered, List.map_append, List.map_cons,
    Matcher.handleAll_append, Matcher.handleAll_cons,
    List.map_append, List.map_cons, List.map_append,
    List.map_cons] at hReplies
  have hLength :
      (List.map some
          (m.handleAll now (before.map Call.event)).1).length
        = (before.map fun d => f.reply? d).length := by
    rw [List.length_map, List.length_map,
      Matcher.length_handleAll, List.length_map]
  exact
    (List.cons.inj
      (List.append_inj hReplies hLength).2).1.symm

/- Whether all calls have ended. -/
def Finished
    (calls : List Call)
    (f : Flight) : Prop :=
  ∀ c ∈ calls, (f.phase c.handle).Ended

/- Some call has not ended, unless all have. -/
theorem exists_unfinished
    {calls : List Call}
    {f : Flight}
    (hUnfinished : ¬ f.Finished calls) :
    ∃ c ∈ calls, ¬ (f.phase c.handle).Ended := by
  simp only [Finished, not_forall] at hUnfinished
  rcases hUnfinished with ⟨c, hCall, hOpen⟩
  exact ⟨c, hCall, hOpen⟩

namespace Traced

variable {now : Readings}
variable {calls : List Call}
variable {m : Matcher}
variable {f : Flight}

/- All calls have run when they have ended. -/
theorem perm_of_finished
    (hTraced : Traced now calls m f)
    (hDistinct : (calls.map Call.handle).Nodup)
    (hFinished : f.Finished calls) :
    f.entered.Perm calls := by
  rw [List.perm_ext_iff_of_nodup hTraced.nodup
    (List.Nodup.of_map Call.handle hDistinct)]
  intro c
  rw [hTraced.mem_iff]
  apply and_iff_left_of_imp
  intro hMem
  rcases hFinished c hMem with ⟨reply, hPhase⟩
  rw [reply?, hPhase]
  rfl

/- All notifications have been emitted then. -/
theorem emitted_of_finished
    (hTraced : Traced now calls m f)
    (hFinished : f.Finished calls) :
    f.emitted.Perm
      (f.entered.flatMap fun c => f.notices c) := by
  have hNone :
      (f.entered.flatMap fun c => f.untold c) = [] := by
    rw [List.flatMap_eq_nil_iff]
    intro c hMem
    rcases hFinished c ((hTraced.mem_iff c).mp hMem).1 with
      ⟨reply, hPhase⟩
    rw [untold, hPhase]
    rfl
  have hTold := hTraced.told
  rwa [hNone, List.append_nil] at hTold

/- The notifications are those of the replies. -/
theorem flatMap_notices
    (hTraced : Traced now calls m f) :
    (f.entered.flatMap fun c => f.notices c)
      = (m.handleAll now
          (f.entered.map Call.event)).1.flatMap
            Reply.notifications := by
  have hReplies := hTraced.replies
  have hAll :
      (f.entered.flatMap fun c => f.notices c)
        = (f.entered.map fun c => f.reply? c).flatMap
          fun r => r.toList.flatMap Reply.notifications := by
    rw [List.flatMap_map]
    rfl
  rw [hAll, ← hReplies, List.flatMap_map]
  simp only [Option.toList_some, List.flatMap_singleton]

end Traced

------------------------------------------------------------
-- The two sides of a leg
------------------------------------------------------------

/- What comes before two of different calls is neither. -/
theorem ne_of_nodup
    {c d o : Call}
    {before between after : List Call}
    (hNodup :
      (before ++ c :: (between ++ d :: after)).Nodup)
    (hMem : o ∈ before ++ between) :
    o ≠ c ∧ o ≠ d := by
  rw [List.nodup_middle, ← List.append_assoc] at hNodup
  rcases List.nodup_cons.mp hNodup with ⟨hFirst, hRest⟩
  rw [List.nodup_middle, List.nodup_cons] at hRest
  constructor
  · intro hSame
    subst hSame
    exact hFirst (List.mem_append_left _ hMem)
  · intro hSame
    subst hSame
    exact hRest.1 (List.mem_append_left _ hMem)

/- Two different calls, and the others. -/
theorem exists_perm_of_mem
    {c d : Call}
    {entered : List Call}
    (hFirst : c ∈ entered)
    (hSecond : d ∈ entered)
    (hNe : c ≠ d) :
    ∃ others, entered.Perm (c :: d :: others) := by
  rcases List.append_of_mem hFirst with ⟨before, after, hSplit⟩
  subst hSplit
  have hRest : d ∈ before ++ after := by
    rcases List.mem_append.mp hSecond with hLeft | hRight
    · exact List.mem_append_left _ hLeft
    · rcases List.mem_cons.mp hRight with hSame | hLater
      · exact absurd hSame.symm hNe
      · exact List.mem_append_right _ hLater
  rcases List.append_of_mem hRest with ⟨front, back, hOther⟩
  refine ⟨front ++ back, List.perm_middle.trans ?_⟩
  rw [hOther]
  exact List.perm_middle.cons c

/- Of two different calls one has run before the other. -/
theorem exists_order
    {c d : Call}
    {entered : List Call}
    (hFirst : c ∈ entered)
    (hSecond : d ∈ entered)
    (hNe : c ≠ d) :
    ∃ before between after,
      entered = before ++ c :: (between ++ d :: after)
        ∨ entered = before ++ d :: (between ++ c :: after) := by
  rcases List.append_of_mem hFirst with ⟨before, after, hSplit⟩
  subst hSplit
  rcases List.mem_append.mp hSecond with hEarlier | hRest
  · rcases List.append_of_mem hEarlier with
      ⟨front, between, hFront⟩
    subst hFront
    refine ⟨front, between, after, .inr ?_⟩
    rw [List.append_assoc, List.cons_append]
  · rcases List.mem_cons.mp hRest with hSame | hLater
    · exact absurd hSame.symm hNe
    · rcases List.append_of_mem hLater with
        ⟨between, back, hBack⟩
      subst hBack
      exact ⟨before, between, back, .inl rfl⟩

/- The replies to the two sides of a leg, in their order. -/
theorem Traced.replies_of_sides
    {now : Readings}
    {calls : List Call}
    {m : Matcher}
    {f : Flight}
    {sent : Sent}
    {received : Received}
    {key : String}
    {c d : Call}
    {before between after : List Call}
    (hTraced : Traced now calls m f)
    (hRuns : m.stopped = false)
    (hSides : Matcher.Sides sent received c.event d.event)
    (hEntered :
      f.entered = before ++ c :: (between ++ d :: after))
    (hKey : c.event.key = .ok key)
    (hSame : d.event.key = .ok key)
    (hStorable : c.event.Storable)
    (hEmpty : ∀ n, Pending.text? n key m.store = none)
    (hOthers :
      ∀ o ∈ f.entered, o ≠ c → o ≠ d →
        o.event.key ≠ .ok key) :
    f.reply? c = some ⟨.ok .pending, []⟩
      ∧ f.reply? d
        = some ⟨.ok .matched, [.ofLeg sent received]⟩ := by
  have hElse :
      ∀ o ∈ before ++ between, o.event.key ≠ .ok key := by
    intro o hMem
    have hNodup := hTraced.nodup
    rw [hEntered] at hNodup
    rcases ne_of_nodup hNodup hMem with ⟨hNotFirst, hNotSecond⟩
    refine hOthers o ?_ hNotFirst hNotSecond
    rw [hEntered]
    rcases List.mem_append.mp hMem with hLeft | hMiddle
    · exact List.mem_append_left _ hLeft
    · exact List.mem_append_right _
        (List.mem_cons_of_mem c
          (List.mem_append_left _ hMiddle))
  have hBefore :
      ∀ e ∈ before.map Call.event, e.key ≠ .ok key := by
    intro e hMem
    rcases List.mem_map.mp hMem with ⟨o, hIn, hEvent⟩
    rw [← hEvent]
    exact hElse o (List.mem_append_left _ hIn)
  have hBetween :
      ∀ e ∈ between.map Call.event, e.key ≠ .ok key := by
    intro e hMem
    rcases List.mem_map.mp hMem with ⟨o, hIn, hEvent⟩
    rw [← hEvent]
    exact hElse o (List.mem_append_right _ hIn)
  have hStill :
      ∀ n,
        Pending.text? n key
            (m.handleAll now (before.map Call.event)).2.store
          = none := by
    intro n
    rw [Matcher.text?_handleAll_of_ne now m hBefore, hEmpty]
  have hRunning :
      (m.handleAll now (before.map Call.event)).2.stopped
        = false := by
    rw [Matcher.stopped_handleAll, hRuns]
  rcases Matcher.handle_pair now hSides hRunning hKey hSame
      hStorable hStill hBetween with
    ⟨hFirst, hSecond⟩
  constructor
  · rw [hTraced.reply?_eq hEntered, hFirst]
  · have hLater :
        f.entered = (before ++ c :: between) ++ d :: after := by
      rw [hEntered, List.append_assoc, List.cons_append]
    rw [hTraced.reply?_eq hLater, List.map_append,
      List.map_cons, Matcher.handleAll_append,
      Matcher.handleAll_cons, hSecond]

/-
  Whether of the two sides of a leg one waited and the other
  matched it, and the only notification that they emitted is
  the one of the leg.
-/
structure PairMatched
    (sent : Sent)
    (received : Received)
    (c d : Call)
    (f : Flight) : Prop where
  replies :
    (f.reply? c = some ⟨.ok .pending, []⟩
        ∧ f.reply? d
          = some ⟨.ok .matched, [.ofLeg sent received]⟩)
      ∨ (f.reply? d = some ⟨.ok .pending, []⟩
        ∧ f.reply? c
          = some ⟨.ok .matched, [.ofLeg sent received]⟩)
  kind :
    (Notification.ofLeg sent received).kind = .hop
      ∨ (Notification.ofLeg sent received).kind = .received
  emitted :
    ∃ others,
      f.entered.Perm (c :: d :: others)
        ∧ f.emitted.Perm
          (.ofLeg sent received
            :: others.flatMap fun o => f.notices o)

theorem Traced.pairMatched
    {now : Readings}
    {calls : List Call}
    {m : Matcher}
    {f : Flight}
    {sent : Sent}
    {received : Received}
    {key : String}
    {c d : Call}
    (hTraced : Traced now calls m f)
    (hDistinct : (calls.map Call.handle).Nodup)
    (hRuns : m.stopped = false)
    (hFinished : f.Finished calls)
    (hFirst : c ∈ calls)
    (hSecond : d ∈ calls)
    (hSent : c.event = .sent sent)
    (hReceived : d.event = .received received)
    (hKey : c.event.key = .ok key)
    (hSame : d.event.key = .ok key)
    (hStorable : c.event.Storable)
    (hAlso : d.event.Storable)
    (hEmpty : ∀ n, Pending.text? n key m.store = none)
    (hAlone :
      ∀ o ∈ calls, o.event.key = .ok key → o = c ∨ o = d) :
    f.PairMatched sent received c d := by
  have hPerm := hTraced.perm_of_finished hDistinct hFinished
  have hNe : c ≠ d := by
    intro hEq
    rw [hEq, hReceived] at hSent
    cases hSent
  have hOthers :
      ∀ o ∈ f.entered, o ≠ c → o ≠ d →
        o.event.key ≠ .ok key := by
    intro o hMem hNotFirst hNotSecond hOwn
    rcases hAlone o (hPerm.mem_iff.mp hMem) hOwn with
      hEq | hEq
    · exact hNotFirst hEq
    · exact hNotSecond hEq
  have hInOrder :
      Matcher.Sides sent received c.event d.event := by
    rw [hSent, hReceived]
    exact .inOrder
  have hReversed :
      Matcher.Sides sent received d.event c.event := by
    rw [hSent, hReceived]
    exact .reversed
  -- Either side may have run first.
  have hReplies :
      (f.reply? c = some ⟨.ok .pending, []⟩
          ∧ f.reply? d
            = some ⟨.ok .matched, [.ofLeg sent received]⟩)
        ∨ (f.reply? d = some ⟨.ok .pending, []⟩
          ∧ f.reply? c
            = some ⟨.ok .matched, [.ofLeg sent received]⟩) := by
    rcases exists_order (hPerm.mem_iff.mpr hFirst)
        (hPerm.mem_iff.mpr hSecond) hNe with
      ⟨before, between, after, hOrder | hOrder⟩
    · exact .inl
        (hTraced.replies_of_sides hRuns hInOrder hOrder hKey
          hSame hStorable hEmpty hOthers)
    · exact .inr
        (hTraced.replies_of_sides hRuns hReversed hOrder hSame
          hKey hAlso hEmpty
          fun o hMem hNotSecond hNotFirst =>
            hOthers o hMem hNotFirst hNotSecond)
  refine ⟨hReplies, Notification.kind_ofLeg sent received, ?_⟩
  rcases exists_perm_of_mem (hPerm.mem_iff.mpr hFirst)
      (hPerm.mem_iff.mpr hSecond) hNe with
    ⟨others, hBoth⟩
  refine ⟨others, hBoth, ?_⟩
  have hEmitted := hTraced.emitted_of_finished hFinished
  refine hEmitted.trans
    ((hBoth.flatMap_right fun o => f.notices o).trans ?_)
  rw [List.flatMap_cons, List.flatMap_cons]
  rcases hReplies with ⟨hWaits, hMatches⟩ | ⟨hWaits, hMatches⟩
  · simp [notices, hWaits, hMatches]
  · simp [notices, hWaits, hMatches]

------------------------------------------------------------
-- Every interleaving
------------------------------------------------------------

/- The steps of any calls can be made until all have ended. -/
theorem Reachable.exists_finished
    {now : Readings}
    {calls : List Call}
    {m : Matcher}
    {l : KeyedLock}
    {f : Flight}
    (hReachable : Reachable now calls m l f)
    (hDistinct : (calls.map Call.handle).Nodup)
    (hRuns : m.stopped = false)
    (hIdle : l.Idle) :
    ∃ g, Reachable now calls m l g ∧ g.Finished calls := by
  induction hWork : f.work calls using Nat.strongRecOn
    generalizing f with
  | ind left ih =>
      by_cases hFinished : f.Finished calls
      · exact ⟨f, hReachable, hFinished⟩
      · have hLocked := hReachable.locked hDistinct hRuns hIdle
        rcases exists_unfinished hFinished with
          ⟨c, hCall, hUnfinished⟩
        rcases hLocked.exists_step now hCall hUnfinished with
          ⟨g, hStep⟩
        exact
          ih (g.work calls) (hWork ▸ hStep.work_lt hDistinct)
            (hReachable.step hStep) rfl

/-
  Calls of a running matcher, in flight at once, whose steps
  are made in any order. No two of them hold the lock of one
  key at a time. As long as not all have ended, some step can
  be made, and every step leaves less to do. When all have
  ended, the replies, the matcher with its store, and the
  notifications are those of the same calls made one after
  the other in the order in which they ran; and the two sides
  of a leg, with a key that nothing else has used, are
  matched once.
-/
theorem Reachable.serialized
    {now : Readings}
    {calls : List Call}
    {m : Matcher}
    {l : KeyedLock}
    {f : Flight}
    (hReachable : Reachable now calls m l f)
    (hDistinct : (calls.map Call.handle).Nodup)
    (hRuns : m.stopped = false)
    (hIdle : l.Idle) :
    (∀ c ∈ calls, ∀ d ∈ calls,
        f.lock.standing c.handle = .held →
          f.lock.standing d.handle = .held →
            c.event.key = d.event.key →
              c = d)
      ∧ (¬ f.Finished calls → ∃ g, Step now calls f g)
      ∧ (∀ g, Step now calls f g → g.work calls < f.work calls)
      ∧ (f.Finished calls →
        let run := m.handleAll now (f.entered.map Call.event)
        f.entered.Perm calls
          ∧ (f.entered.map fun c => f.reply? c)
            = run.1.map some
          ∧ f.matcher = run.2
          ∧ f.emitted.Perm (run.1.flatMap Reply.notifications)
          ∧ ∀ c ∈ calls, ∀ d ∈ calls, ∀ sent received key,
            c.event = .sent sent →
              d.event = .received received →
                c.event.key = .ok key →
                  d.event.key = .ok key →
                    c.event.Storable →
                      d.event.Storable →
                        (∀ n,
                          Pending.text? n key m.store
                            = none) →
                          (∀ o ∈ calls,
                            o.event.key = .ok key →
                              o = c ∨ o = d) →
                            f.PairMatched sent received c d) := by
  have hLocked := hReachable.locked hDistinct hRuns hIdle
  have hTraced := hReachable.traced hDistinct hRuns hIdle
  refine ⟨?_, ?_, ?_, ?_⟩
  · exact fun c hFirst d hSecond hHeld hOther hKey =>
      hLocked.exclusive hDistinct hFirst hSecond hHeld hOther
        hKey
  · intro hUnfinished
    rcases exists_unfinished hUnfinished with
      ⟨c, hCall, hOpen⟩
    exact hLocked.exists_step now hCall hOpen
  · exact fun g hStep => hStep.work_lt hDistinct
  · intro hFinished run
    refine
      ⟨hTraced.perm_of_finished hDistinct hFinished,
        hTraced.replies.symm, hTraced.matcher.symm, ?_, ?_⟩
    · rw [← hTraced.flatMap_notices]
      exact hTraced.emitted_of_finished hFinished
    · intro c hFirst d hSecond sent received key hSent
        hReceived hKey hSame hStorable hAlso hEmpty hAlone
      exact
        hTraced.pairMatched hDistinct hRuns hFinished hFirst
          hSecond hSent hReceived hKey hSame hStorable hAlso
          hEmpty hAlone

/-
  A message is seen where it left and where it arrived at
  once: however the two calls end, they match once.
-/
theorem Reachable.serialized_seenPair :
    ∃ f,
      Reachable (.still ⟨1⟩)
          [⟨"left", .sent seenSent⟩,
            ⟨"arrived", .received seenReceived⟩]
          (Matcher.begin 60000 .counted .empty) .empty f
        ∧ f.Finished
          [⟨"left", .sent seenSent⟩,
            ⟨"arrived", .received seenReceived⟩]
        ∧ f.PairMatched seenSent seenReceived
          ⟨"left", .sent seenSent⟩
          ⟨"arrived", .received seenReceived⟩ := by
  have hDistinct :
      ([(⟨"left", .sent seenSent⟩ : Call),
        ⟨"arrived", .received seenReceived⟩].map
          Call.handle).Nodup := by
    decide
  have hBegin :
      Reachable (.still ⟨1⟩)
        [⟨"left", .sent seenSent⟩,
          ⟨"arrived", .received seenReceived⟩]
        (Matcher.begin 60000 .counted .empty) .empty
        (begin (.begin 60000 .counted .empty) .empty) :=
    .start
  rcases Reachable.exists_finished
      hBegin hDistinct rfl KeyedLock.idle_empty with
    ⟨f, hReachable, hFinished⟩
  refine ⟨f, hReachable, hFinished, ?_⟩
  rcases hReachable.serialized hDistinct rfl
      KeyedLock.idle_empty with
    ⟨-, -, -, hEnd⟩
  rcases hEnd hFinished with ⟨-, -, -, -, hPair⟩
  refine hPair _ List.mem_cons_self _
    (List.mem_cons_of_mem _ List.mem_cons_self) seenSent
    seenReceived Matcher.seenKey rfl rfl rfl rfl
    Event.storable_seenSent Event.storable_seenReceived ?_ ?_
  · exact fun n => Matcher.Reachable.text?_begin _ _ n _
  · intro o hMem _
    rcases List.mem_cons.mp hMem with hFirst | hRest
    · exact .inl hFirst
    · exact .inr (List.mem_singleton.mp hRest)

end Flight

end JourneyMatch

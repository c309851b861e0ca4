import JourneyMatch.Proofs.Matcher.Expiry
import JourneyMatch.Proofs.Matcher.History
import JourneyMatch.Proofs.Task.Scheduled
import JourneyMatch.Proofs.Time.Timestamp

/-
  This file dates the entries of a history. The event that
  was stored last under a key is its latest delivery, and the
  entry there names a task that is due after the expiry of
  that delivery, whatever was delivered before it. A sweep
  thus removes the entries whose latest delivery is over.

  Key definitions include:
    * `Delivery`
    * `Delivery.due`
    * `Matcher.delivery?`
    * `Matcher.latest?`
    * `Matcher.isOver`
    * `Matcher.Dated`

  Main statements:
    * `Matcher.Meeting.text?_of_waits`
    * `Matcher.dated_moveAll`
    * `Matcher.sweep_latest`
-/

namespace JourneyMatch

------------------------------------------------------------
-- Deliveries
------------------------------------------------------------

/- An event that was stored, when, and under which expiry. -/
structure Delivery where
  event : Event
  arrival : Instant
  expiry : Nat

namespace Delivery

/- The end of the expiry, or the last instant before it. -/
def due
    (d : Delivery) : Instant :=
  ⟨min (d.arrival.nanos + d.expiry * 1000000)
    Instant.last.nanos⟩

/- Whether a delivery is due before an instant. -/
def isOver
    (now : Instant)
    (d : Delivery) : Bool :=
  d.due.millis < now.millis

end Delivery

/- Whether a call has stored its event. -/
def Reply.waits
    (r : Reply) : Bool :=
  match r.result with
  | .ok .pending => true
  | _ => false

namespace Matcher

/- What a move delivers under a key of a namespace. -/
def delivery?
    (n : Namespace)
    (key : String)
    (next : Move)
    (m : Matcher) : Option Delivery :=
  match next with
  | .event now e =>
      if e.nameSpace = n ∧ e.key = .ok key
          ∧ (m.handle now e).1.waits then
        some ⟨e, now.scheduled, m.expiry⟩
      else
        none
  | _ => none

/- The latest delivery under a key in some moves. -/
def latest?
    (n : Namespace)
    (key : String) :
    List Move → Matcher → Option Delivery
  | [], _ => none
  | next :: rest, m =>
      (latest? n key rest (m.move next)).or
        (m.delivery? n key next)

theorem latest?_append
    (n : Namespace)
    (key : String)
    (first second : List Move)
    (m : Matcher) :
    m.latest? n key (first ++ second)
      = ((m.moveAll first).latest? n key second).or
        (m.latest? n key first) := by
  induction first generalizing m with
  | nil => exact Option.or_none.symm
  | cons next first ih =>
      rw [List.cons_append, latest?, ih, latest?, moveAll,
        Option.or_assoc]

/- A delivery is the latest until there is another. -/
theorem latest?_of_delivery?
    {n : Namespace}
    {key : String}
    {earlier later : List Move}
    {next : Move}
    {m : Matcher}
    {d : Delivery}
    (hDelivery :
      (m.moveAll earlier).delivery? n key next = some d)
    (hLater :
      (m.moveAll (earlier ++ [next])).latest? n key later
        = none) :
    m.latest? n key (earlier ++ next :: later) = some d := by
  rw [moveAll_append] at hLater
  simp only [moveAll] at hLater
  rw [latest?_append, latest?, hLater, hDelivery]
  rfl

/- Whether the latest delivery under a key is over. -/
def isOver
    (now : Instant)
    (n : Namespace)
    (key : String)
    (history : List Move)
    (start : Matcher) : Bool :=
  (start.latest? n key history).any (·.isOver now)

------------------------------------------------------------
-- Calls that store their event
------------------------------------------------------------

namespace Meeting

variable {now : Readings}
variable {key : String}
variable {m after : Matcher}
variable {e : Event}
variable {reply : Reply}

/- An event that waits stands under its key. -/
theorem text?_of_waits
    (hMeeting : Meeting now key m e reply after)
    (hWaits : reply.waits = true) :
    Pending.text? e.nameSpace key after.store
      = some (m.newText now key e) := by
  cases hMeeting with
  | unread => cases hWaits
  | unreadRelay => cases hWaits
  | sentMatched => cases hWaits
  | @sentWaits message relayed old =>
      rw [text?_cancelRelay, dropRelay_eq]
      cases relayed <;> simp [Event.nameSpace]
  | receivedMatched => cases hWaits
  | receivedWaits => simp
  | relayedTold => cases hWaits
  | relayedWaits => simp
  | overwritten => cases hWaits

/- In a paired store an event waits if no other side does. -/
theorem waits_iff
    (hMeeting : Meeting now key m e reply after)
    (hPaired : m.store.Paired) :
    reply.waits = true
      ↔ Pending.record? e.counterpart key m.store = .ok none := by
  rcases hPaired.exists_record? e.nameSpace key with
    ⟨found, hOwn⟩
  cases hMeeting with
  | unread hRead =>
      rcases hPaired.exists_record? e.counterpart key with
        ⟨other, hOther⟩
      cases hRead.symm.trans hOther
  | unreadRelay _ hRead =>
      rcases hPaired.exists_record? .relayed key with
        ⟨other, hOther⟩
      cases hRead.symm.trans hOther
  | sentMatched hInbound =>
      rw [Event.counterpart, hInbound]
      simp [Reply.waits]
  | sentWaits hInbound => exact iff_of_true rfl hInbound
  | receivedMatched hOutbound =>
      rw [Event.counterpart, hOutbound]
      simp [Reply.waits]
  | receivedWaits hOutbound => exact iff_of_true rfl hOutbound
  | relayedTold hOutbound =>
      rw [Event.counterpart, hOutbound]
      simp [Reply.waits]
  | relayedWaits hOutbound => exact iff_of_true rfl hOutbound
  | overwritten _ _ hUnread => cases hUnread.symm.trans hOwn

/- A call that does not store its event adds nothing. -/
theorem within_of_not_waits
    {found : Option (PendingRecord Event)}
    (hMeeting : Meeting now key m e reply after)
    (hOwn :
      Pending.record? e.nameSpace key m.store = .ok found)
    (hWaits : reply.waits = false) :
    after.store.Within m.store := by
  cases hMeeting with
  | unread => exact Store.Within.refl _
  | unreadRelay => exact Store.Within.refl _
  | sentMatched =>
      exact (within_cancelRelay _ _).trans
        ((Store.Within.cancel _ _).trans
          ((Store.Within.remove _ _ _).trans
            (Store.Within.remove _ _ _)))
  | sentWaits => cases hWaits
  | receivedMatched =>
      exact (Store.Within.cancel _ _).trans
        (Store.Within.remove _ _ _)
  | receivedWaits => cases hWaits
  | relayedTold => exact Store.Within.refl _
  | relayedWaits => cases hWaits
  | overwritten _ _ hUnread => cases hUnread.symm.trans hOwn

end Meeting

------------------------------------------------------------
-- Entries and their latest deliveries
------------------------------------------------------------

/-
  Whether every entry names a task that is due when its
  latest delivery is.
-/
def Dated
    (start : Matcher)
    (history : List Move) : Prop :=
  ∀ n key text,
    Pending.text? n key (start.moveAll history).store
        = some text →
      ∃ d tag,
        start.latest? n key history = some d
          ∧ (∃ now e,
            .event now e ∈ history
              ∧ now.scheduled = d.arrival)
          ∧ Pending.Names n key
            (taskKey (Janitor.due d.arrival d.expiry) tag)
            (start.moveAll history).store

/- An entry that a move leaves as it was is dated as before. -/
theorem Dated.kept
    {start : Matcher}
    {history : List Move}
    {next : Move}
    {n : Namespace}
    {key text : String}
    (hDated : Dated start history)
    (hBefore :
      Pending.text? n key (start.moveAll history).store
        = some text)
    (hAfter :
      Pending.text? n key
          (start.moveAll (history ++ [next])).store
        = some text)
    (hNone :
      (start.moveAll history).delivery? n key next = none) :
    ∃ d tag,
      start.latest? n key (history ++ [next]) = some d
        ∧ (∃ now e,
          .event now e ∈ history ++ [next]
            ∧ now.scheduled = d.arrival)
        ∧ Pending.Names n key
          (taskKey (Janitor.due d.arrival d.expiry) tag)
          (start.moveAll (history ++ [next])).store := by
  rcases hDated n key text hBefore with
    ⟨d, tag, hLatest, ⟨now, e, hMem, hWhen⟩, hNames⟩
  refine
    ⟨d, tag, ?_, ⟨now, e, List.mem_append_left _ hMem, hWhen⟩,
      hNames.congr (hAfter.trans hBefore.symm)⟩
  rw [latest?_append, latest?, latest?, hNone]
  exact hLatest

/- An event that waits is the latest delivery of its entry. -/
theorem Meeting.names_of_waits
    {now : Readings}
    {key : String}
    {m after : Matcher}
    {e : Event}
    {reply : Reply}
    (hMeeting : Meeting now key m e reply after)
    (hStorable : e.Storable)
    (hWaits : reply.waits = true) :
    Pending.Names e.nameSpace key
      (taskKey (Janitor.due now.scheduled m.expiry) m.tags.next)
      after.store := by
  refine ⟨e, Int64.ofInt now.stored.unixMillis, hStorable, rfl, ?_⟩
  rw [hMeeting.text?_of_waits hWaits, newText, key_expiryTask,
    freshTask]

/- A move that brings no event delivers nothing. -/
theorem Dated.concat_removal
    {start : Matcher}
    {history : List Move}
    {next : Move}
    (hDated : Dated start history)
    (hNext : next.Admits fun _ => False) :
    Dated start (history ++ [next]) := by
  intro n key text hText
  have hAfter := hText
  rw [moveAll_append] at hAfter
  refine hDated.kept ?_ hText ?_
  · exact (within_move _ hNext).entries n key text hAfter
  · cases next with
    | event now e => exact hNext.elim
    | clear => rfl
    | delete => rfl
    | setExpiry => rfl
    | sweep => rfl

/- An event is the latest delivery of the entry it writes. -/
theorem Dated.concat_event
    {start : Matcher}
    {history : List Move}
    {e : Event}
    (hDated : Dated start history)
    (hStorable : e.Storable)
    (hPaired : (start.moveAll history).store.Paired)
    (now : Readings) :
    Dated start (history ++ [.event now e]) := by
  intro n key text hText
  have hLast :
      start.moveAll (history ++ [.event now e])
        = (start.moveAll history).move (.event now e) :=
    moveAll_append history [.event now e] start
  have hAfter := hText
  rw [hLast] at hAfter
  rcases (start.moveAll history).handle_cases now e with
    ⟨reason, hHandle⟩
      | ⟨own, reply, after, hKey, hHandle, hMeeting⟩
  · rw [move, hHandle] at hAfter
    refine hDated.kept hAfter hText ?_
    simp [delivery?, hHandle, Reply.rejected, Reply.waits]
  rw [move, hHandle] at hAfter
  by_cases hHere :
      e.nameSpace = n ∧ own = key ∧ reply.waits = true
  · -- The entry is the one that the call has written.
    rcases hHere with ⟨hName, hSame, hWaits⟩
    subst hName hSame
    refine
      ⟨⟨e, now.scheduled, (start.moveAll history).expiry⟩,
        (start.moveAll history).tags.next, ?_,
        ⟨now, e, List.mem_append_right _ List.mem_cons_self,
          rfl⟩, ?_⟩
    · rw [latest?_append, latest?, latest?]
      simp [delivery?, hKey, hHandle, hWaits]
    · rw [hLast, move, hHandle]
      exact hMeeting.names_of_waits hStorable hWaits
  · -- The entry stood there before.
    refine hDated.kept ?_ hText ?_
    · cases hWaits : reply.waits with
      | false =>
          rcases hPaired.exists_record? e.nameSpace own with
            ⟨found, hOwn⟩
          exact (hMeeting.within_of_not_waits hOwn
            hWaits).entries n key text hAfter
      | true =>
          rcases hMeeting.text?_cases hAfter with
            hOld | ⟨hName, hSame, -⟩
          · exact hOld
          · exact absurd ⟨hName.symm, hSame.symm, hWaits⟩
              hHere
    · simp only [delivery?, hKey, hHandle, Except.ok.injEq,
        hHere, if_false]

/- One more move at the end of a history. -/
theorem Dated.concat
    {start : Matcher}
    {history : List Move}
    {next : Move}
    (hDated : Dated start history)
    (hNext : next.Admits Event.Storable)
    (hPaired : (start.moveAll history).store.Paired) :
    Dated start (history ++ [next]) := by
  rcases Reachable.admits_cases hNext with
    ⟨now, e, hEvent, hStorable⟩ | hRemoval
  · rw [hEvent]
    exact hDated.concat_event hStorable hPaired now
  · exact hDated.concat_removal hRemoval

/- A history of storable events leaves a paired store. -/
theorem paired_moveAll
    {expiry : Nat}
    {tags : TagSource}
    {history : List Move}
    (hTags : tags.NeverRepeats)
    (hHistory :
      ∀ next ∈ history, next.Admits Event.Storable) :
    ((begin expiry tags .empty).moveAll history).store.Paired :=
  (Reachable.paired_drawn hTags
    (Reachable.start.moveAll hHistory)).1

/- Every entry of a history is dated. -/
theorem dated_moveAll
    {expiry : Nat}
    {tags : TagSource}
    {history : List Move}
    (hTags : tags.NeverRepeats)
    (hHistory :
      ∀ next ∈ history, next.Admits Event.Storable) :
    Dated (begin expiry tags .empty) history := by
  induction history using List.reverseRecOn with
  | nil =>
      intro n key text hText
      rw [moveAll, Reachable.text?_begin] at hText
      cases hText
  | append_singleton history next ih =>
      have hEarlier :
          ∀ other ∈ history, other.Admits Event.Storable :=
        fun other hMem =>
          hHistory other (List.mem_append_left _ hMem)
      exact (ih hEarlier).concat
        (hHistory next
          (List.mem_append_right _ List.mem_cons_self))
        (paired_moveAll hTags hEarlier)

------------------------------------------------------------
-- Sweeps of a history
------------------------------------------------------------

/- A delivery from the year 0 on is due from then on as well. -/
theorem yearZero_le_due
    {d : Delivery}
    (hYears : Instant.yearZero.nanos ≤ d.arrival.nanos) :
    Instant.yearZero.millis ≤ d.due.millis
      ∧ d.due.millis ≤ Instant.last.millis := by
  unfold Instant.yearZero Instant.millis Delivery.due
    Instant.last at *
  dsimp only at *
  omega

/-
  In a history of storable events from the year 0 on, the task
  that an entry names is noted by a sweep just if the latest
  delivery of the entry is over.
-/
theorem mem_due_iff_isOver
    {expiry : Nat}
    {tags : TagSource}
    {history : List Move}
    {now : Instant}
    {n : Namespace}
    {key task : String}
    (hTags : tags.NeverRepeats)
    (hHistory :
      ∀ next ∈ history, next.Admits Event.Storable)
    (hYears :
      ∀ arrival e, .event arrival e ∈ history →
        Instant.yearZero.nanos ≤ arrival.scheduled.nanos)
    (hNow : now.nanos ≤ Instant.last.nanos)
    (hNames :
      Pending.Names n key task
        ((begin expiry tags .empty).moveAll history).store) :
    task ∈ TaskQueue.due now
        ((begin expiry tags .empty).moveAll history).store
      ↔ (begin expiry tags .empty).isOver now n key history
        = true := by
  have hTask :=
    (paired_moveAll hTags hHistory).text?_of_names hNames
  have hText := hNames
  rcases hText with ⟨_, _, _, _, hText⟩
  rcases dated_moveAll hTags hHistory n key _ hText with
    ⟨d, tag, hLatest, ⟨first, e, hMem, hWhen⟩, hDated⟩
  have hArrival := hWhen ▸ hYears first e hMem
  have hDue := yearZero_le_due hArrival
  have hFirst :
      Instant.first.nanos ≤ Instant.yearZero.nanos := by
    decide
  have hEnd : Janitor.due d.arrival d.expiry = d.due :=
    Janitor.due_eq (Int.le_trans hFirst hArrival) d.expiry
  rw [hEnd] at hDated
  have hLast : now.millis ≤ Instant.last.millis :=
    Int.ediv_le_ediv (by decide) hNow
  rw [TaskQueue.mem_due_iff, hNames.unique hDated,
    taskKey_lt_dueBound_iff hDue.1 hDue.2 hLast, isOver, hLatest]
  rw [hNames.unique hDated] at hTask
  simp [hTask, Delivery.isOver]

/-
  In every history of storable events from the year 0 on, a
  sweep removes the entries whose latest delivery is over,
  with their tasks, and nothing else. It is no call with an
  event and has no reply, so that nobody is notified. It
  reports as many tasks as it has removed entries, and no
  failure. An entry that has replaced another stays until its
  own delivery is over, whenever the other was due.
-/
theorem sweep_latest
    {expiry : Nat}
    {tags : TagSource}
    {history : List Move}
    {now : Instant}
    (hTags : tags.NeverRepeats)
    (hHistory :
      ∀ next ∈ history, next.Admits Event.Storable)
    (hYears :
      ∀ arrival e, .event arrival e ∈ history →
        Instant.yearZero.nanos ≤ arrival.scheduled.nanos)
    (hNow : now.nanos ≤ Instant.last.nanos) :
    let start := begin expiry tags .empty
    let s := (start.moveAll history).store
    let result := fireDue Service.firstListeners now s
    (∀ n key,
        Pending.text? n key s ≠ none →
          start.latest? n key history ≠ none)
      ∧ (∀ n key,
        Pending.text? n key result.2
          = if start.isOver now n key history then none
            else Pending.text? n key s)
      ∧ (∀ n key task,
        Pending.expiryTask? n key s = some task →
          TaskQueue.text? task result.2
            = if start.isOver now n key history then none
              else TaskQueue.text? task s)
      ∧ (∀ task,
        (∀ n key, Pending.expiryTask? n key s ≠ some task) →
          TaskQueue.text? task result.2
            = TaskQueue.text? task s)
      ∧ (∀ name,
        name ∉ levels → result.2.level name = s.level name)
      ∧ (∃ count : Nat,
        (Pending.keys s \ Pending.keys result.2).encard = count
          ∧ FiringReport.of result.1 = ⟨count, 0⟩)
      ∧ ∀ n key earlier next later d,
        history = earlier ++ next :: later →
          (start.moveAll earlier).delivery? n key next
              = some d →
            (start.moveAll (earlier ++ [next])).latest? n key
                later = none →
              d.isOver now = false →
                Pending.text? n key result.2
                  = Pending.text? n key s := by
  intro start s result
  have hPaired : s.Paired := paired_moveAll hTags hHistory
  have hSwept := hPaired.swept_fireDue now
  have hOver :
      ∀ n key task, Pending.Names n key task s →
        (task ∈ TaskQueue.due now s
          ↔ start.isOver now n key history = true) :=
    fun n key task hNames =>
      mem_due_iff_isOver hTags hHistory hYears hNow hNames
  have hEntries :
      ∀ n key,
        Pending.text? n key result.2
          = if start.isOver now n key history then none
            else Pending.text? n key s :=
    fun n key => hSwept.text?_eq hPaired (hOver n key)
  refine ⟨?_, hEntries, ?_, ?_, hSwept.others,
    hPaired.report_fireDue now, ?_⟩
  · intro n key hText
    rcases Option.ne_none_iff_exists'.mp hText with
      ⟨text, hFound⟩
    rcases dated_moveAll hTags hHistory n key text hFound with
      ⟨d, -, hLatest, -⟩
    rw [hLatest]
    exact nofun
  · intro n key task hTask
    exact hSwept.task_eq
      (hOver n key task (hPaired.names_of_expiryTask? hTask))
  · intro task hNone
    apply hSwept.taskKept
    intro hMem
    rcases (TaskQueue.mem_due_iff.mp hMem).1 with ⟨text, hText⟩
    rcases hPaired.task task text hText with ⟨n, key, hNames⟩
    exact hNone n key hNames.expiryTask?_eq
  · intro n key earlier next later d hParts hDelivery hLater
      hTime
    have hLatest := latest?_of_delivery? hDelivery hLater
    rw [hEntries, isOver, hParts, hLatest, Option.any_some,
      hTime]
    rfl

/- A relay is seen, and the expiry becomes a minute. -/
def seenOnce : List Move :=
  [.event (.still ⟨0⟩) (.relayed seenRelay), .setExpiry 60000]

/- Half a second later the relay is seen again. -/
def seenAgain : Move :=
  .event ⟨⟨500000000⟩, ⟨500700000⟩⟩ (.relayed seenRelay)

theorem storable_seenOnce :
    ∀ next ∈ seenOnce, next.Admits Event.Storable := by
  intro next hMem
  simp only [seenOnce, List.mem_cons, List.not_mem_nil,
    or_false] at hMem
  rcases hMem with hFirst | hExpiry
  · exact hFirst ▸ Event.storable_seenRelay
  · exact hExpiry ▸ trivial

/- The second relay replaces the first. -/
theorem delivery?_seenAgain :
    ((begin 1000 .counted .empty).moveAll seenOnce).delivery?
        .relayed seenKey seenAgain
      = some ⟨.relayed seenRelay, ⟨500000000⟩, 60000⟩ := by
  have hReachable :
      Reachable Event.Storable 1000 .counted
        ((begin 1000 .counted .empty).moveAll seenOnce) :=
    Reachable.start.moveAll storable_seenOnce
  have hAlone :
      Pending.record? .awaitingDestination seenKey
          ((begin 1000 .counted .empty).moveAll seenOnce).store
        = .ok none := by
    apply Pending.record?_of_text?_eq_none
    cases hText :
        Pending.text? .awaitingDestination seenKey
          ((begin 1000 .counted .empty).moveAll
            seenOnce).store with
    | none => rfl
    | some text =>
        have hFirst :
            Pending.text? .awaitingDestination seenKey
                ((begin 1000 .counted .empty).handle (.still ⟨0⟩)
                  (.relayed seenRelay)).2.store
              = some text := hText
        rcases text?_handle_cases hFirst with hOld | hWrote
        · rw [Reachable.text?_begin] at hOld
          cases hOld
        · cases hWrote.nameSpace
  have hMeeting :=
    meeting_meet ⟨⟨500000000⟩, ⟨500700000⟩⟩ seenKey
      (.relayed seenRelay)
      ((begin 1000 .counted .empty).moveAll seenOnce)
  have hWaits :=
    (hMeeting.waits_iff
      (paired_moveAll TagSource.neverRepeats_counted
        storable_seenOnce)).mpr hAlone
  rw [← handle_of_key ⟨⟨500000000⟩, ⟨500700000⟩⟩
    hReachable.stopped_eq key_seenRelay] at hWaits
  simp only [delivery?, seenAgain]
  rw [if_pos ⟨rfl, key_seenRelay, hWaits⟩]
  rfl

/-
  When the first relay would have been removed, after a
  second, the one that has replaced it stays.
-/
theorem sweep_latest_seenAgain :
    let s :=
      ((begin 1000 .counted .empty).moveAll
        (seenOnce ++ [seenAgain])).store
    Pending.text? .relayed seenKey
        (fireDue Service.firstListeners ⟨2000000000⟩ s).2
      = Pending.text? .relayed seenKey s := by
  have hStorable :
      ∀ next ∈ seenOnce ++ [seenAgain],
        next.Admits Event.Storable := by
    intro next hMem
    rcases List.mem_append.mp hMem with hFirst | hSecond
    · exact storable_seenOnce next hFirst
    · exact List.mem_singleton.mp hSecond
        ▸ Event.storable_seenRelay
  have hYears :
      ∀ arrival e, .event arrival e ∈ seenOnce ++ [seenAgain] →
        Instant.yearZero.nanos ≤ arrival.scheduled.nanos := by
    intro arrival e hMem
    simp only [seenOnce, seenAgain, List.cons_append,
      List.nil_append, List.mem_cons, Move.event.injEq,
      reduceCtorEq, List.not_mem_nil, false_or,
      or_false] at hMem
    rcases hMem with hFirst | hSecond
    · exact hFirst.1 ▸ by decide
    · exact hSecond.1 ▸ by decide
  rcases @sweep_latest 1000 .counted (seenOnce ++ [seenAgain])
      ⟨2000000000⟩ TagSource.neverRepeats_counted hStorable
      hYears (by decide) with
    ⟨-, -, -, -, -, -, hReplaced⟩
  exact hReplaced .relayed seenKey seenOnce seenAgain [] _ rfl
    delivery?_seenAgain rfl (by decide)

end Matcher

end JourneyMatch

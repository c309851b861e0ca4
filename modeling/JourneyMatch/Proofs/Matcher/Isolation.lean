import Mathlib.Data.List.Sort
import JourneyMatch.Proofs.Matcher.Bookkeeping
import JourneyMatch.Proofs.Matcher.History
import JourneyMatch.Proofs.Matcher.Subscription

/-
  This file shows that subscriptions do not interfere. What a
  history does for one subscription, the results, what is
  told, and what waits afterwards, does not depend on the
  events, clearings and deletions of the others, though all
  of them share the namespaces, the queue and the sweeps.

  Two matchers are run side by side. Their ledgers agree on
  the keys of the subscription, and go on doing so when both
  make a move that concerns it, or one of them makes a move
  that does not.

  Key definitions include:
    * `Move.concerns`
    * `Pending.keysWithin`
    * `Matcher.results`
    * `Matcher.notices`
    * `Matcher.Alike`
    * `Pending.SameButTag`

  Main statements:
    * `Matcher.Alike.concerned`
    * `Matcher.Alike.unconcerned`
    * `Matcher.subscriptions_apart`
-/

namespace JourneyMatch

------------------------------------------------------------
-- Moves and subscriptions
------------------------------------------------------------

/-
  Whether a move concerns a subscription: an event of it, a
  clearing of it, a deletion of one of its keys, or a move
  that concerns all of them.
-/
def Move.concerns
    (subscription : String) : Move → Bool
  | .event _ e => e.subscription = subscription
  | .clear other => other = subscription
  | .delete _ key =>
      Level.startsWith (subscriptionStart subscription) key
  | .setExpiry _ => true
  | .sweep _ => true

/- The result of a move, if it has one. -/
inductive MoveResult where
  | handled (result : Except MatchError MatchOutcome)
  | cleared (count : Except MatchError Nat)
  | deleted (found : Except StoreError Bool)
  | done

namespace Matcher

/- The result of a move. -/
def result
    (m : Matcher) : Move → MoveResult
  | .event now e => .handled (m.handle now e).1.result
  | .clear subscription => .cleared (m.clear subscription).1
  | .delete n key =>
      .deleted (Admin.deletePending n key m.store).1
  | .setExpiry _ => .done
  | .sweep _ => .done

/- What a move tells. -/
def told
    (m : Matcher) : Move → List Notification
  | .event now e => (m.handle now e).1.notifications
  | _ => []

/- The moves of a history, each with its result. -/
def results :
    List Move → Matcher → List (Move × MoveResult)
  | [], _ => []
  | next :: rest, m =>
      (next, m.result next) :: results rest (m.move next)

/- What a history tells. -/
def notices :
    List Move → Matcher → List Notification
  | [], _ => []
  | next :: rest, m =>
      m.told next ++ notices rest (m.move next)

theorem results_append
    (first second : List Move)
    (m : Matcher) :
    m.results (first ++ second)
      = m.results first ++ (m.moveAll first).results second := by
  induction first generalizing m with
  | nil => rfl
  | cons next first ih =>
      exact congrArg _ (ih (m.move next))

theorem notices_append
    (first second : List Move)
    (m : Matcher) :
    m.notices (first ++ second)
      = m.notices first ++ (m.moveAll first).notices second := by
  induction first generalizing m with
  | nil => rfl
  | cons next first ih =>
      simp only [List.cons_append, notices, ih (m.move next),
        List.append_assoc]
      rfl

end Matcher

------------------------------------------------------------
-- Keys and subscriptions
------------------------------------------------------------

/- The key of an event is one of its subscription. -/
theorem Event.startsWith_key
    {e : Event}
    {key : String}
    (hKey : e.key = .ok key) :
    ValidSubscription e.subscription
      ∧ Level.startsWith (subscriptionStart e.subscription) key
        = true := by
  rcases key_eq_ok_iff.mp hKey with ⟨id, hLeg, hSame⟩
  rcases legId?_eq_ok_iff.mp hLeg with ⟨hValid, hFront, -⟩
  rw [hFront]
  refine ⟨hValid, Level.startsWith_iff.mpr ?_⟩
  subst hSame
  exact
    ⟨(correlationKey id.identity id.chain).toList, by
      simp [LegId.key, pendingKey]⟩

/- The key of an event tells whether it is of a subscription. -/
theorem Event.startsWith_key_eq
    {e : Event}
    {key subscription : String}
    (hValid : ValidSubscription subscription)
    (hKey : e.key = .ok key) :
    Level.startsWith (subscriptionStart subscription) key
      = decide (e.subscription = subscription) := by
  rcases startsWith_key hKey with ⟨hOwn, hStarts⟩
  by_cases hSame : e.subscription = subscription
  · rw [decide_eq_true hSame, ← hSame]
    exact hStarts
  · rw [decide_eq_false hSame, Bool.eq_false_iff]
    intro hOther
    exact hSame
      (subscription_eq_of_startsWith hOwn hValid hStarts hOther)

------------------------------------------------------------
-- The keys of a subscription
------------------------------------------------------------

namespace Pending

/- The keys of a subscription in one namespace. -/
def keysWithin
    (subscription : String)
    (n : Namespace)
    (s : Store) : List String :=
  ((level n s).startingWith
    (subscriptionStart subscription)).map (·.1)

theorem subscriptionKeys_eq_flatMap
    (subscription : String)
    (s : Store) :
    subscriptionKeys subscription s
      = Namespace.all.flatMap fun n =>
        (keysWithin subscription n s).map fun key => (n, key) := by
  simp only [subscriptionKeys, keysWithin, List.map_map,
    Function.comp_def]

variable {subscription : String}

/- They are the keys of the entries that begin with it. -/
theorem mem_keysWithin_iff
    {n : Namespace}
    {key : String}
    {s : Store} :
    key ∈ keysWithin subscription n s
      ↔ text? n key s ≠ none
        ∧ Level.startsWith (subscriptionStart subscription) key
          = true := by
  rw [Option.ne_none_iff_exists']
  constructor
  · intro hKey
    rcases List.mem_map.mp hKey with ⟨⟨_, text⟩, hEntry, hFst⟩
    subst hFst
    rcases List.mem_filter.mp hEntry with ⟨hThere, hStarts⟩
    exact ⟨⟨text, SortedMap.mem_entries_iff.mp hThere⟩, hStarts⟩
  · rintro ⟨⟨text, hText⟩, hStarts⟩
    exact List.mem_map.mpr
      ⟨(key, text), List.mem_filter.mpr
        ⟨SortedMap.mem_entries_iff.mpr hText, hStarts⟩, rfl⟩

theorem ascending_keysWithin
    (subscription : String)
    (n : Namespace)
    (s : Store) :
    (keysWithin subscription n s).Pairwise (· < ·) :=
  List.pairwise_map.mpr
    ((level n s).ascending.sublist List.filter_sublist)

theorem mem_subscriptionKeys_iff
    {s : Store}
    {n : Namespace}
    {key : String} :
    (n, key) ∈ subscriptionKeys subscription s
      ↔ text? n key s ≠ none
        ∧ Level.startsWith (subscriptionStart subscription) key
          = true := by
  have hAll : n ∈ Namespace.all := by cases n <;> decide
  rw [subscriptionKeys_eq_flatMap, ← mem_keysWithin_iff]
  constructor
  · intro hMem
    rcases List.mem_flatMap.mp hMem with ⟨m, -, hThere⟩
    rcases List.mem_map.mp hThere with ⟨other, hKey, hSame⟩
    cases hSame
    exact hKey
  · intro hKey
    exact List.mem_flatMap.mpr
      ⟨n, hAll, List.mem_map.mpr ⟨key, hKey, rfl⟩⟩

/- The keys of a subscription begin with it. -/
theorem startsWith_of_mem_subscriptionKeys
    {s : Store}
    {p : Namespace × String}
    (hMem : p ∈ subscriptionKeys subscription s) :
    Level.startsWith (subscriptionStart subscription) p.2
      = true :=
  (mem_subscriptionKeys_iff.mp hMem).2

/-
  Stores that have entries under the same keys of a
  subscription give the same keys in the same order.
-/
theorem subscriptionKeys_congr
    {s t : Store}
    (hSame :
      ∀ n key,
        Level.startsWith (subscriptionStart subscription) key
            = true →
          (text? n key s).isSome = (text? n key t).isSome) :
    subscriptionKeys subscription s
      = subscriptionKeys subscription t := by
  have hKeys :
      ∀ n,
        keysWithin subscription n s
          = keysWithin subscription n t := by
    intro n
    apply (ascending_keysWithin _ _ _).eq_of_mem_iff
      (ascending_keysWithin _ _ _)
    intro key
    rw [mem_keysWithin_iff, mem_keysWithin_iff]
    apply and_congr_left
    intro hStarts
    rw [← Option.isSome_iff_ne_none, ← Option.isSome_iff_ne_none,
      hSame n key hStarts]
  rw [subscriptionKeys_eq_flatMap, subscriptionKeys_eq_flatMap]
  simp only [hKeys]

end Pending

------------------------------------------------------------
-- Matchers side by side
------------------------------------------------------------

namespace Matcher

/-
  Whether two matchers that run hold the same for a
  subscription, each with the tags of its own source.
-/
structure Alike
    (subscription : String)
    (tags others : TagSource)
    (m t : Matcher) : Prop where
  runs : m.stopped = false
  alsoRuns : t.stopped = false
  expiry : m.expiry = t.expiry
  ledgers :
    ∃ l k : Ledger,
      m.Shows tags l
        ∧ t.Shows others k
        ∧ l.AgreeUnder (subscriptionStart subscription) k

/- A call does not change the usual expiry. -/
theorem expiry_handle
    (now : Readings)
    (e : Event)
    (m : Matcher) :
    (m.handle now e).2.expiry = m.expiry := by
  rcases m.handle_cases now e with
    ⟨reason, hHandle⟩
      | ⟨key, reply, after, -, hHandle, hMeeting⟩
  · rw [hHandle]
  · rw [hHandle]
    exact hMeeting.expiry_eq

/- What a running matcher does when it is cleared. -/
theorem clear_of_valid
    {subscription : String}
    {m : Matcher}
    (hRuns : m.stopped = false)
    (hValid : ValidSubscription subscription) :
    m.clear subscription
      = ((m.clearKeys
            (Pending.subscriptionKeys subscription
              m.store)).1.mapError .store,
        (m.clearKeys
          (Pending.subscriptionKeys subscription
            m.store)).2) := by
  simp only [clear, hRuns, Bool.false_eq_true, if_false,
    if_pos hValid]
  rcases m.clearKeys
      (Pending.subscriptionKeys subscription m.store) with
    ⟨cause | count, after⟩ <;> rfl

theorem clear_of_invalid
    {subscription : String}
    {m : Matcher}
    (hRuns : m.stopped = false)
    (hInvalid : ¬ ValidSubscription subscription) :
    (m.clear subscription).2 = m := by
  simp only [clear, hRuns, Bool.false_eq_true, if_false,
    if_neg hInvalid]

namespace Alike

variable {subscription : String}
variable {tags others : TagSource}
variable {m t : Matcher}

theorem symm
    (hAlike : Alike subscription tags others m t) :
    Alike subscription others tags t m := by
  rcases hAlike.ledgers with ⟨l, k, hShows, hOther, hAgree⟩
  exact
    { runs := hAlike.alsoRuns
      alsoRuns := hAlike.runs
      expiry := hAlike.expiry.symm
      ledgers :=
        ⟨k, l, hOther, hShows,
          fun key hKey => (hAgree key hKey).symm⟩ }

/-
  A move that concerns the subscription has the same result
  in both matchers, tells the same, and leaves them alike.
-/
theorem concerned
    {next : Move}
    (hAlike : Alike subscription tags others m t)
    (hValid : ValidSubscription subscription)
    (hTags : tags.NeverRepeats)
    (hOthers : others.NeverRepeats)
    (hNext : next.concerns subscription = true) :
    m.result next = t.result next
      ∧ m.told next = t.told next
      ∧ Alike subscription tags others
        (m.move next) (t.move next) := by
  rcases hAlike with
    ⟨hRuns, hAlso, hExpiry, l, k, hShows, hOther, hAgree⟩
  cases next with
  | event now e =>
      have hSame := of_decide_eq_true hNext
      rcases hShows.handle hTags hRuns now e with
        ⟨hReply, hAfter⟩
      rcases hOther.handle hOthers hAlso now e with
        ⟨hGiven, hLeft⟩
      rw [← hExpiry] at hGiven hLeft
      have hKey :
          ∀ key, e.key = .ok key →
            Level.startsWith (subscriptionStart subscription) key
              = true := by
        intro key hKey
        rw [Event.startsWith_key_eq hValid hKey]
        exact decide_eq_true hSame
      rcases hAgree.handle hKey now m.expiry with
        ⟨hReplies, hLedgers⟩
      have hEqual : (m.handle now e).1 = (t.handle now e).1 :=
        hReply.trans (hReplies.trans hGiven.symm)
      refine ⟨?_, ?_, ?_⟩
      · rw [result, result, hEqual]
      · rw [told, told, hEqual]
      · exact
          { runs := (stopped_handle now e m).trans hRuns
            alsoRuns := (stopped_handle now e t).trans hAlso
            expiry :=
              (expiry_handle now e m).trans
                (hExpiry.trans (expiry_handle now e t).symm)
            ledgers := ⟨_, _, hAfter, hLeft, hLedgers⟩ }
  | clear other =>
      have hSame : other = subscription := of_decide_eq_true hNext
      subst hSame
      have hKeys :
          Pending.subscriptionKeys other m.store
            = Pending.subscriptionKeys other t.store := by
        apply Pending.subscriptionKeys_congr
        intro n key hKey
        rw [hShows.text?_isSome, hOther.text?_isSome,
          hAgree key hKey]
      rcases hShows.clearKeys
          (Pending.subscriptionKeys other m.store) with
        ⟨hCount, hAfter⟩
      rcases hOther.clearKeys
          (Pending.subscriptionKeys other t.store) with
        ⟨hGiven, hLeft⟩
      rw [← hKeys] at hGiven hLeft
      have hOwn :
          ∀ p ∈ Pending.subscriptionKeys other m.store,
            Level.startsWith (subscriptionStart other) p.2
              = true :=
        fun p hMem =>
          Pending.startsWith_of_mem_subscriptionKeys hMem
      rcases hAgree.clearKeys hOwn with ⟨hCounts, hLedgers⟩
      have hEqual :=
        hCount.trans (hCounts.trans hGiven.symm)
      refine ⟨?_, rfl, ?_⟩
      · rw [result, result, clear_of_valid hRuns hValid,
          clear_of_valid hAlso hValid, ← hKeys, hEqual]
      · rw [move, move, clear_of_valid hRuns hValid,
          clear_of_valid hAlso hValid, ← hKeys]
        exact
          { runs := by rw [clearKeys_rest]; exact hRuns
            alsoRuns := by rw [clearKeys_rest]; exact hAlso
            expiry := by
              rw [clearKeys_rest, t.clearKeys_rest]
              exact hExpiry
            ledgers := ⟨_, _, hAfter, hLeft, hLedgers⟩ }
  | delete n key =>
      rcases hShows.deletePending n key with ⟨hFound, hAfter⟩
      rcases hOther.deletePending n key with ⟨hGiven, hLeft⟩
      rcases hAgree.take hNext n with ⟨hEqual, hLedgers⟩
      refine ⟨?_, rfl, ?_⟩
      · rw [result, result, hFound, hGiven, hEqual]
      · exact
          { runs := hRuns
            alsoRuns := hAlso
            expiry := hExpiry
            ledgers := ⟨_, _, hAfter, hLeft, hLedgers⟩ }
  | setExpiry millis =>
      refine ⟨rfl, rfl, ?_⟩
      exact
        { runs := hRuns
          alsoRuns := hAlso
          expiry := rfl
          ledgers :=
            ⟨l, k, hShows.of_agree rfl (.refl _),
              hOther.of_agree rfl (.refl _), hAgree⟩ }
  | sweep now =>
      refine ⟨rfl, rfl, ?_⟩
      exact
        { runs := hRuns
          alsoRuns := hAlso
          expiry := hExpiry
          ledgers :=
            ⟨_, _, hShows.fireDue now, hOther.fireDue now,
              hAgree.sweep now⟩ }

/-
  A move that does not concern the subscription tells nothing
  of it, and may be made by one of the matchers alone.
-/
theorem unconcerned
    {next : Move}
    (hAlike : Alike subscription tags others m t)
    (hValid : ValidSubscription subscription)
    (hTags : tags.NeverRepeats)
    (hNext : next.concerns subscription = false) :
    (m.told next).filter (·.subscription = subscription) = []
      ∧ Alike subscription tags others (m.move next) t := by
  rcases hAlike with
    ⟨hRuns, hAlso, hExpiry, l, k, hShows, hOther, hAgree⟩
  cases next with
  | event now e =>
      have hElse := of_decide_eq_false hNext
      rcases hShows.handle hTags hRuns now e with ⟨-, hAfter⟩
      have hKey :
          ∀ key, e.key = .ok key →
            Level.startsWith (subscriptionStart subscription) key
              = false := by
        intro key hKey
        rw [Event.startsWith_key_eq hValid hKey]
        exact decide_eq_false hElse
      refine ⟨?_, ?_⟩
      · exact (hShows.authored.filter_notices now e
          subscription).trans (if_neg hElse)
      · exact
          { runs := (stopped_handle now e m).trans hRuns
            alsoRuns := hAlso
            expiry := (expiry_handle now e m).trans hExpiry
            ledgers :=
              ⟨_, k, hAfter, hOther,
                Ledger.agreeUnder_handle hAgree hKey now
                  m.expiry⟩ }
  | clear other =>
      refine ⟨rfl, ?_⟩
      by_cases hProper : ValidSubscription other
      · rw [move, clear_of_valid hRuns hProper]
        have hElse := of_decide_eq_false hNext
        have hKeys :
            ∀ p ∈ Pending.subscriptionKeys other m.store,
              Level.startsWith (subscriptionStart subscription)
                  p.2
                = false := by
          intro p hMem
          rw [Bool.eq_false_iff]
          intro hKey
          exact hElse
            (subscription_eq_of_startsWith hProper hValid
              (Pending.startsWith_of_mem_subscriptionKeys hMem)
              hKey)
        exact
          { runs := by rw [clearKeys_rest]; exact hRuns
            alsoRuns := hAlso
            expiry := by rw [clearKeys_rest]; exact hExpiry
            ledgers :=
              ⟨_, k, (hShows.clearKeys _).2, hOther,
                Ledger.agreeUnder_clearKeys hAgree hKeys⟩ }
      · rw [move, clear_of_invalid hRuns hProper]
        exact
          ⟨hRuns, hAlso, hExpiry, l, k, hShows, hOther, hAgree⟩
  | delete n key =>
      refine ⟨rfl, ?_⟩
      exact
        { runs := hRuns
          alsoRuns := hAlso
          expiry := hExpiry
          ledgers :=
            ⟨_, k, (hShows.deletePending n key).2, hOther,
              hAgree.update hNext _⟩ }
  | setExpiry millis => cases hNext
  | sweep now => cases hNext

/- So may any number of such moves. -/
theorem unconcerned_all
    {history : List Move}
    (hAlike : Alike subscription tags others m t)
    (hValid : ValidSubscription subscription)
    (hTags : tags.NeverRepeats)
    (hHistory :
      ∀ next ∈ history, next.concerns subscription = false) :
    (m.results history).filter (·.1.concerns subscription) = []
      ∧ (m.notices history).filter
          (·.subscription = subscription)
        = []
      ∧ Alike subscription tags others (m.moveAll history) t := by
  induction history generalizing m with
  | nil => exact ⟨rfl, rfl, hAlike⟩
  | cons next rest ih =>
      have hNext := hHistory next List.mem_cons_self
      rcases hAlike.unconcerned hValid hTags hNext with
        ⟨hTold, hAfter⟩
      rcases ih hAfter fun other hMem =>
          hHistory other (List.mem_cons_of_mem _ hMem) with
        ⟨hResults, hNotices, hLeft⟩
      refine ⟨?_, ?_, hLeft⟩
      · rw [results, List.filter_cons_of_neg (by simp [hNext]),
          hResults]
      · rw [notices, List.filter_append, hTold, hNotices,
          List.append_nil]

/-
  Histories with the same moves of a subscription do the same
  for it. Up to the next of these moves, both matchers make
  moves that do not concern it, each on its own.
-/
theorem run
    {history kept : List Move}
    (hAlike : Alike subscription tags others m t)
    (hValid : ValidSubscription subscription)
    (hTags : tags.NeverRepeats)
    (hOthers : others.NeverRepeats)
    (hKept :
      kept.filter (·.concerns subscription)
        = history.filter (·.concerns subscription)) :
    (m.results history).filter (·.1.concerns subscription)
        = (t.results kept).filter (·.1.concerns subscription)
      ∧ (m.notices history).filter
          (·.subscription = subscription)
        = (t.notices kept).filter
          (·.subscription = subscription)
      ∧ Alike subscription tags others
        (m.moveAll history) (t.moveAll kept) := by
  induction history generalizing m t kept with
  | nil =>
      have hNone :
          ∀ next ∈ kept, next.concerns subscription = false := by
        intro next hMem
        rw [Bool.eq_false_iff]
        exact List.filter_eq_nil_iff.mp hKept next hMem
      rcases hAlike.symm.unconcerned_all hValid hOthers hNone with
        ⟨hResults, hNotices, hLeft⟩
      exact ⟨hResults.symm, hNotices.symm, hLeft.symm⟩
  | cons next rest ih =>
      cases hNext : next.concerns subscription with
      | false =>
          rw [List.filter_cons_of_neg (by simp [hNext])] at hKept
          rcases hAlike.unconcerned hValid hTags hNext with
            ⟨hTold, hAfter⟩
          rcases ih hAfter hKept with ⟨hResults, hNotices, hLeft⟩
          refine ⟨?_, ?_, hLeft⟩
          · rw [results,
              List.filter_cons_of_neg (by simp [hNext]), hResults]
          · rw [notices, List.filter_append, hTold,
              List.nil_append, hNotices]
      | true =>
          rw [List.filter_cons_of_pos hNext] at hKept
          rcases List.filter_eq_cons_iff.mp hKept with
            ⟨before, behind, hSplit, hBefore, -, hBehind⟩
          subst hSplit
          have hNone :
              ∀ other ∈ before,
                other.concerns subscription = false := by
            intro other hMem
            rw [Bool.eq_false_iff]
            exact hBefore other hMem
          rcases hAlike.symm.unconcerned_all hValid hOthers hNone
            with ⟨hEarlier, hQuiet, hReady⟩
          rcases hReady.symm.concerned hValid hTags hOthers hNext
            with ⟨hResult, hTold, hAfter⟩
          rcases ih hAfter hBehind with
            ⟨hResults, hNotices, hLeft⟩
          rw [results_append, notices_append, moveAll_append]
          refine ⟨?_, ?_, hLeft⟩
          · rw [List.filter_append, hEarlier, List.nil_append,
              results, results]
            simp only [List.filter_cons, hNext, if_true, hResult,
              hResults]
          · rw [List.filter_append, hQuiet, List.nil_append,
              notices, notices, List.filter_append,
              List.filter_append, hTold, hNotices]

end Alike

end Matcher

------------------------------------------------------------
-- Subscriptions do not interfere
------------------------------------------------------------

/-
  Whether stores have the same entry under a key, but for the
  tags of tasks: neither has one, or both have the record of
  one event, stored at one time and due at one time, and its
  task is in both queues or in neither.
-/
def Pending.SameButTag
    (tags others : TagSource)
    (n : Namespace)
    (key : String)
    (s t : Store) : Prop :=
  (text? n key s = none ∧ text? n key t = none)
    ∨ ∃ (e : Event) (due : Instant) (storedAt : Int64) (i j : Nat),
      text? n key s
          = some
            (e.recordText (taskKey due (tags.tag i)) storedAt)
        ∧ text? n key t
          = some
            (e.recordText (taskKey due (others.tag j)) storedAt)
        ∧ TaskQueue.text? (taskKey due (tags.tag i)) s
          = TaskQueue.text? (taskKey due (others.tag j)) t

namespace Matcher

variable {subscription : String}
variable {tags others : TagSource}

/- Matchers that are alike have the same entries. -/
theorem Alike.sameButTag
    {m t : Matcher}
    {key : String}
    (hAlike : Alike subscription tags others m t)
    (n : Namespace)
    (hKey :
      Level.startsWith (subscriptionStart subscription) key
        = true) :
    Pending.SameButTag tags others n key m.store t.store := by
  rcases hAlike.ledgers with ⟨l, k, hShows, hOther, hAgree⟩
  have hSame : k key n = l key n := by rw [hAgree key hKey]
  cases hHeld : l key n with
  | none =>
      rw [hHeld] at hSame
      exact .inl
        ⟨hShows.empty n key hHeld, hOther.empty n key hSame⟩
  | some h =>
      rw [hHeld] at hSame
      rcases hShows.held n key h hHeld with ⟨i, hStands⟩
      rcases hOther.held n key h hSame with ⟨j, hGiven⟩
      exact .inr
        ⟨h.event, h.due, h.storedAt, i, j, hStands.text,
          hGiven.text, hStands.task.trans hGiven.task.symm⟩

/-
  A history from the empty store, and what is kept of it when
  moves that belong to other subscriptions are left out, do
  the same for a subscription: its moves have the same
  results, it is told the same, and the same entries wait
  under its keys, with the times at which they were stored
  and are due. The events that are left out may be of the
  same messages, and may be rejected, unreadable or failing.
-/
theorem subscriptions_apart
    {history kept : List Move}
    (expiry : Nat)
    (hValid : ValidSubscription subscription)
    (hTags : tags.NeverRepeats)
    (hOthers : others.NeverRepeats)
    (hKept :
      kept.filter (·.concerns subscription)
        = history.filter (·.concerns subscription)) :
    let m := begin expiry tags .empty
    let t := begin expiry others .empty
    (m.results history).filter (·.1.concerns subscription)
        = (t.results kept).filter (·.1.concerns subscription)
      ∧ (m.notices history).filter
          (·.subscription = subscription)
        = (t.notices kept).filter
          (·.subscription = subscription)
      ∧ ∀ n key,
        Level.startsWith (subscriptionStart subscription) key
            = true →
          Pending.SameButTag tags others n key
            (m.moveAll history).store (t.moveAll kept).store := by
  intro m t
  have hStart : Alike subscription tags others m t :=
    { runs := rfl
      alsoRuns := rfl
      expiry := rfl
      ledgers :=
        ⟨.empty, .empty, .start expiry tags,
          .start expiry others, fun _ _ => rfl⟩ }
  rcases hStart.run hValid hTags hOthers hKept with
    ⟨hResults, hNotices, hAlike⟩
  exact ⟨hResults, hNotices,
    fun n key hKey => hAlike.sameButTag n hKey⟩

/-
  The message is seen on the way for one subscription, while
  another is told of its whole journey, and is cleared.
-/
def seenBeside : List Move :=
  [ .event (.still ⟨0⟩)
      (.sent { seenSent with subscription := "guests" }),
    .event (.still ⟨0⟩) (.sent seenSent),
    .event (.still ⟨1⟩)
      (.received { seenReceived with subscription := "guests" }),
    .clear "guests",
    .sweep ⟨2⟩,
    .event (.still ⟨3⟩) (.received seenReceived) ]

/- What the one subscription sees of it. -/
def seenAlone : List Move :=
  [ .event (.still ⟨0⟩) (.sent seenSent),
    .sweep ⟨2⟩,
    .event (.still ⟨3⟩) (.received seenReceived) ]

theorem filter_seenBeside :
    seenAlone.filter (·.concerns "journeys")
      = seenBeside.filter (·.concerns "journeys") := by
  rfl

theorem subscriptions_apart_seenBeside :
    ((begin 5 .counted .empty).results seenBeside).filter
        (·.1.concerns "journeys")
      = ((begin 5 .counted .empty).results seenAlone).filter
        (·.1.concerns "journeys") :=
  (subscriptions_apart 5 (by decide)
    TagSource.neverRepeats_counted
    TagSource.neverRepeats_counted filter_seenBeside).1

end Matcher

end JourneyMatch

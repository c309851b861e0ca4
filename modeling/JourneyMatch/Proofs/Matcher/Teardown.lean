import Mathlib.Data.Set.Card
import JourneyMatch.Proofs.Matcher.Isolation
import JourneyMatch.Proofs.Matcher.Visitor
import JourneyMatch.Proofs.Store.Sweep

/-
  This file says exactly what clearing a subscription removes
  from a store of any content: its own entries in the three
  namespaces, and the tasks that their records name. The keys
  are noted first, and taken one after the other; a key that
  is taken is not met again, and taking one leaves the texts
  under the others as they were.

  Key definitions include:
    * `Pending.Refers`
    * `Pending.ownKeys`
    * `Store.Cleared`

  Main statements:
    * `Pending.encard_ownKeys`
    * `Store.Cleared.cons`
    * `Store.Cleared.text?_eq`
    * `Matcher.cleared_clearKeys`
    * `Matcher.clear_of_readable`
    * `Matcher.clear_exact`
-/

namespace JourneyMatch

------------------------------------------------------------
-- The entries of a subscription
------------------------------------------------------------

namespace Pending

/-
  Whether the record under a key names a task, whatever its
  message is.
-/
def Refers
    (n : Namespace)
    (key task : String)
    (s : Store) : Prop :=
  ∃ text r,
    text? n key s = some text
      ∧ decodeStored (PendingRecord Json) text = .ok r
      ∧ r.expiryTask = task

/- What a record names is seen through its text alone. -/
theorem refers_congr
    {n : Namespace}
    {key task : String}
    {s t : Store}
    (hText : text? n key t = text? n key s) :
    Refers n key task t ↔ Refers n key task s := by
  unfold Refers
  rw [hText]

/- The entries of a subscription in the three namespaces. -/
def ownKeys
    (subscription : String)
    (s : Store) : Set (Namespace × String) :=
  { p ∈ keys s |
    Level.startsWith (subscriptionStart subscription) p.2
      = true }

/- No key is noted twice. -/
theorem nodup_subscriptionKeys
    (subscription : String)
    (s : Store) :
    (subscriptionKeys subscription s).Nodup := by
  rw [subscriptionKeys_eq_flatMap]
  apply List.nodup_flatMap.mpr
  constructor
  · intro n _
    apply List.pairwise_map.mpr
    apply (ascending_keysWithin subscription n s).imp
    intro a b hLess hSame
    exact String.lt_irrefl _ ((Prod.mk.inj hSame).2 ▸ hLess)
  · have hDistinct : Namespace.all.Nodup := by decide
    apply hDistinct.imp
    intro m n hNe p hFirst hSecond
    rcases List.mem_map.mp hFirst with ⟨_, -, hLeft⟩
    rcases List.mem_map.mp hSecond with ⟨_, -, hRight⟩
    exact hNe (Prod.mk.inj (hLeft.trans hRight.symm)).1

/- There are as many keys as entries. -/
theorem encard_ownKeys
    (subscription : String)
    (s : Store) :
    (ownKeys subscription s).encard
      = (subscriptionKeys subscription s).length := by
  have hSame :
      ownKeys subscription s
        = { p | p ∈ subscriptionKeys subscription s } := by
    ext p
    exact mem_subscriptionKeys_iff.symm
  rw [hSame, ← List.coe_toFinset,
    Set.encard_coe_eq_coe_finsetCard,
    List.toFinset_card_of_nodup
      (nodup_subscriptionKeys subscription s)]

end Pending

------------------------------------------------------------
-- Stores that have been cleared
------------------------------------------------------------

/-
  Whether a store has lost some entries and the tasks that
  their records named, and nothing else.
-/
structure Store.Cleared
    (gone : List (Namespace × String))
    (s t : Store) : Prop where
  entry :
    ∀ n key,
      Pending.text? n key t
        = if (n, key) ∈ gone then none
          else Pending.text? n key s
  task :
    ∀ task,
      (∃ p ∈ gone, Pending.Refers p.1 p.2 task s) →
        TaskQueue.text? task t = none
  taskKept :
    ∀ task,
      (∀ p ∈ gone, ¬ Pending.Refers p.1 p.2 task s) →
        TaskQueue.text? task t = TaskQueue.text? task s
  others :
    ∀ name, name ∉ Matcher.levels → t.level name = s.level name

namespace Store.Cleared

theorem refl
    (s : Store) :
    s.Cleared [] s :=
  { entry := fun _ _ => by simp
    task := fun _ hRefers => by simp at hRefers
    taskKept := fun _ _ => rfl
    others := fun _ _ => rfl }

/-
  An entry is taken with its task, and then the others, which
  are still as they were.
-/
theorem cons
    {n : Namespace}
    {key text : String}
    {r : PendingRecord Json}
    {rest : List (Namespace × String)}
    {s t : Store}
    (hText : Pending.text? n key s = some text)
    (hDecode : decodeStored (PendingRecord Json) text = .ok r)
    (hOnce : (n, key) ∉ rest)
    (hRest :
      Store.Cleared rest
        (TaskQueue.cancel r.expiryTask
          (Pending.remove n key s)).2 t) :
    s.Cleared ((n, key) :: rest) t := by
  have hNames : Pending.Refers n key r.expiryTask s :=
    ⟨text, r, hText, hDecode, rfl⟩
  have hUnique :
      ∀ task, Pending.Refers n key task s →
        task = r.expiryTask := by
    rintro task ⟨found, other, hFound, hOther, hTask⟩
    rw [hText] at hFound
    cases hFound
    rw [hDecode] at hOther
    cases hOther
    exact hTask.symm
  have hOthers :
      ∀ p ∈ rest, ∀ task,
        Pending.Refers p.1 p.2 task
            (TaskQueue.cancel r.expiryTask
              (Pending.remove n key s)).2
          ↔ Pending.Refers p.1 p.2 task s := by
    intro p hMem task
    have hElse : ¬ (p.1 = n ∧ p.2 = key) := by
      rintro ⟨hName, hKey⟩
      exact hOnce (hName ▸ hKey ▸ hMem)
    apply Pending.refers_congr
    rw [Pending.text?_cancel, Pending.text?_remove,
      if_neg hElse]
  constructor
  · intro m other
    rw [hRest.entry, Pending.text?_cancel, Pending.text?_remove]
    simp only [List.mem_cons, Prod.mk.injEq]
    by_cases hLater : (m, other) ∈ rest
    · rw [if_pos hLater, if_pos (Or.inr hLater)]
    · rw [if_neg hLater]
      simp only [hLater, or_false]
  · rintro task ⟨p, hMem, hRefers⟩
    by_cases hLater :
        ∃ q ∈ rest, Pending.Refers q.1 q.2 task s
    · rcases hLater with ⟨q, hThere, hOther⟩
      exact hRest.task task
        ⟨q, hThere, (hOthers q hThere task).mpr hOther⟩
    · have hHere : task = r.expiryTask := by
        rcases List.mem_cons.mp hMem with hHead | hTail
        · subst hHead
          exact hUnique task hRefers
        · exact absurd ⟨p, hTail, hRefers⟩ hLater
      rw [hRest.taskKept task, TaskQueue.text?_cancel,
        if_pos hHere]
      intro q hThere hOther
      exact hLater ⟨q, hThere, (hOthers q hThere task).mp hOther⟩
  · intro task hNone
    have hElse : task ≠ r.expiryTask := by
      intro hSame
      exact hNone (n, key) List.mem_cons_self (hSame ▸ hNames)
    rw [hRest.taskKept task, TaskQueue.text?_cancel,
      if_neg hElse, TaskQueue.text?_remove]
    intro q hThere hOther
    exact hNone q (List.mem_cons_of_mem _ hThere)
      ((hOthers q hThere task).mp hOther)
  · intro name hName
    have hNamespace : n.name ≠ name := by
      intro hEq
      exact hName (hEq ▸ n.name_mem_levels)
    have hQueue : TaskQueue.level ≠ name := by
      intro hEq
      exact hName (hEq ▸ List.mem_cons_self)
    rw [hRest.others name hName]
    simp [Pending.remove, TaskQueue.cancel, Store.onLevel,
      hNamespace, hQueue]

variable {subscription : String}
variable {s t : Store}

/- Just the texts of the subscription are gone. -/
theorem text?_eq
    (hCleared :
      s.Cleared (Pending.subscriptionKeys subscription s) t)
    (n : Namespace)
    (key : String) :
    Pending.text? n key t
      = if Level.startsWith (subscriptionStart subscription) key
        then none else Pending.text? n key s := by
  rw [hCleared.entry]
  simp only [Pending.mem_subscriptionKeys_iff]
  by_cases hStarts :
      Level.startsWith (subscriptionStart subscription) key
        = true
  · by_cases hThere : Pending.text? n key s = none
    · simp [hThere]
    · rw [if_pos ⟨hThere, hStarts⟩, if_pos hStarts]
  · rw [if_neg fun hOwn => hStarts hOwn.2, if_neg hStarts]

/- No text of another subscription is. -/
theorem text?_of_ne
    {other : String}
    (hCleared :
      s.Cleared (Pending.subscriptionKeys subscription s) t)
    (hOther : ValidSubscription other)
    (hValid : ValidSubscription subscription)
    (hNe : other ≠ subscription)
    (n : Namespace)
    (correlation : String) :
    Pending.text? n (pendingKey other correlation) t
      = Pending.text? n (pendingKey other correlation) s := by
  have hOwn :
      Level.startsWith (subscriptionStart other)
        (pendingKey other correlation) = true :=
    Level.startsWith_iff.mpr
      ⟨correlation.toList, by simp [pendingKey]⟩
  rw [hCleared.text?_eq, if_neg]
  intro hStarts
  exact hNe
    (subscription_eq_of_startsWith hOther hValid hOwn hStarts)

end Store.Cleared

------------------------------------------------------------
-- Clearing
------------------------------------------------------------

/- An entry that decodes is taken. -/
theorem Pending.onLevel_take_of_decode
    {n : Namespace}
    {key text : String}
    {r : PendingRecord Json}
    {s : Store}
    (hText : text? n key s = some text)
    (hDecode : decodeStored (PendingRecord Json) text = .ok r) :
    s.onLevel n.name (fun l => l.take (PendingRecord Json) key)
      = (.ok (some r), remove n key s) := by
  have hGet :
      (level n s).get (PendingRecord Json) key
        = .ok (some r) := by
    unfold Level.get
    rw [show (level n s).find? key = some text from hText]
    simp only [decodeStored?, hDecode, Except.map]
  rw [onLevel_take, hGet]

namespace Matcher

/- Keys of entries that decode are all taken and counted. -/
theorem cleared_clearKeys
    {keys : List (Namespace × String)}
    {m : Matcher}
    (hOnce : keys.Nodup)
    (hReadable :
      ∀ p ∈ keys, ∃ text r,
        Pending.text? p.1 p.2 m.store = some text
          ∧ decodeStored (PendingRecord Json) text = .ok r) :
    (m.clearKeys keys).1 = .ok keys.length
      ∧ m.store.Cleared keys (m.clearKeys keys).2.store := by
  induction keys generalizing m with
  | nil => exact ⟨rfl, .refl m.store⟩
  | cons head rest ih =>
      rcases head with ⟨n, key⟩
      rw [List.nodup_cons] at hOnce
      rcases hReadable (n, key) List.mem_cons_self with
        ⟨text, r, hText, hDecode⟩
      have hRest :
          ∀ p ∈ rest, ∃ found other,
            Pending.text? p.1 p.2
                ((m.remove n key).cancel r.expiryTask).store
              = some found
            ∧ decodeStored (PendingRecord Json) found
              = .ok other := by
        intro p hMem
        rcases hReadable p (List.mem_cons_of_mem _ hMem) with
          ⟨found, other, hFound, hOther⟩
        have hElse : ¬ (p.1 = n ∧ p.2 = key) := by
          rintro ⟨hName, hKey⟩
          exact hOnce.1 (hName ▸ hKey ▸ hMem)
        refine ⟨found, other, ?_, hOther⟩
        rw [store_cancel, Pending.text?_cancel, store_remove,
          Pending.text?_remove, if_neg hElse, hFound]
      rcases ih (m := (m.remove n key).cancel r.expiryTask)
          hOnce.2 hRest with ⟨hCount, hCleared⟩
      rw [clearKeys,
        Pending.onLevel_take_of_decode hText hDecode]
      exact
        ⟨congrArg (Except.map (· + 1)) hCount,
          .cons hText hDecode hOnce.1 hCleared⟩

/- A subscription whose entries all decode loses all of them. -/
theorem clear_of_readable
    {subscription : String}
    {m : Matcher}
    (hRuns : m.stopped = false)
    (hValid : ValidSubscription subscription)
    (hReadable :
      ∀ n key text,
        Level.startsWith (subscriptionStart subscription) key
            = true →
          Pending.text? n key m.store = some text →
            ∃ r, decodeStored (PendingRecord Json) text
              = .ok r) :
    (m.clear subscription).1
        = .ok (Pending.subscriptionKeys subscription
          m.store).length
      ∧ m.store.Cleared
        (Pending.subscriptionKeys subscription m.store)
        (m.clear subscription).2.store := by
  have hFound :
      ∀ p ∈ Pending.subscriptionKeys subscription m.store,
        ∃ text r,
          Pending.text? p.1 p.2 m.store = some text
            ∧ decodeStored (PendingRecord Json) text
              = .ok r := by
    intro p hThere
    rcases Pending.mem_subscriptionKeys_iff.mp hThere with
      ⟨hEntry, hStarts⟩
    rcases Option.ne_none_iff_exists'.mp hEntry with
      ⟨text, hText⟩
    rcases hReadable p.1 p.2 text hStarts hText with
      ⟨r, hDecode⟩
    exact ⟨text, r, hText, hDecode⟩
  rcases cleared_clearKeys
      (Pending.nodup_subscriptionKeys subscription m.store)
      hFound with ⟨hCount, hCleared⟩
  rw [clear_of_valid hRuns hValid, hCount]
  exact ⟨rfl, hCleared⟩

/- A subscription without entries is cleared at once. -/
theorem clear_of_text?_eq_none
    {subscription : String}
    {m : Matcher}
    (hRuns : m.stopped = false)
    (hValid : ValidSubscription subscription)
    (hNone :
      ∀ n key,
        Level.startsWith (subscriptionStart subscription) key
            = true →
          Pending.text? n key m.store = none) :
    m.clear subscription = (.ok 0, m) := by
  have hNoKeys :
      Pending.subscriptionKeys subscription m.store = [] := by
    apply List.eq_nil_iff_forall_not_mem.mpr
    rintro ⟨n, key⟩ hThere
    rcases Pending.mem_subscriptionKeys_iff.mp hThere with
      ⟨hLeft, hStarts⟩
    exact hLeft (hNone n key hStarts)
  rw [clear_of_valid hRuns hValid, hNoKeys]
  rfl

/-
  Clearing a subscription whose entries all decode removes
  them and the tasks that their records name, and tells how
  many entries there were. All else is as it was: the entries
  of other subscriptions, also of one whose name goes on where
  the name of this one ends, all other tasks, the other
  levels, and the rest of the matcher. The steps of the call
  tell nobody anything, and the same call made again finds
  nothing and changes nothing.
-/
theorem clear_exact
    {subscription : String}
    {m : Matcher}
    (hRuns : m.stopped = false)
    (hValid : ValidSubscription subscription)
    (hReadable :
      ∀ n key text,
        Level.startsWith (subscriptionStart subscription) key
            = true →
          Pending.text? n key m.store = some text →
            ∃ r, decodeStored (PendingRecord Json) text
              = .ok r) :
    let own := Pending.ownKeys subscription m.store
    let after := (m.clear subscription).2
    (∃ count : Nat,
        own.encard = count
          ∧ (m.clear subscription).1 = .ok count
          ∧ ∀ (c : Visitor) (l : KeyedLock),
            c.request = .clear subscription → l.Idle →
              ∃ free,
                c.Runs ⟨m, l, .begun⟩ []
                  ⟨after, free, .ready (.clear (.ok count))⟩)
      ∧ (∀ n key,
        Pending.text? n key after.store
          = if Level.startsWith (subscriptionStart subscription)
              key then none
            else Pending.text? n key m.store)
      ∧ (∀ n other correlation,
        ValidSubscription other → other ≠ subscription →
          Pending.text? n (pendingKey other correlation)
              after.store
            = Pending.text? n (pendingKey other correlation)
              m.store)
      ∧ (∀ task,
        (∃ p ∈ own, Pending.Refers p.1 p.2 task m.store) →
          TaskQueue.text? task after.store = none)
      ∧ (∀ task,
        (∀ p ∈ own, ¬ Pending.Refers p.1 p.2 task m.store) →
          TaskQueue.text? task after.store
            = TaskQueue.text? task m.store)
      ∧ (∀ name,
        name ∉ levels →
          after.store.level name = m.store.level name)
      ∧ after = { m with store := after.store }
      ∧ after.clear subscription = (.ok 0, after) := by
  intro own after
  rcases clear_of_readable hRuns hValid hReadable with
    ⟨hCount, hCleared⟩
  have hMem :
      ∀ {p}, p ∈ Pending.subscriptionKeys subscription m.store
        ↔ p ∈ own :=
    Pending.mem_subscriptionKeys_iff
  refine
    ⟨⟨_, Pending.encard_ownKeys subscription m.store, hCount,
        ?_⟩,
      hCleared.text?_eq, ?_, ?_, ?_, hCleared.others,
      m.clear_rest subscription, ?_⟩
  · intro c l hRequest hIdle
    rcases Visitor.runs_clear hRequest hRuns hIdle with
      ⟨free, -, hSteps⟩
    rw [hCount] at hSteps
    exact ⟨free, hSteps⟩
  · intro n other correlation hOther hNe
    exact hCleared.text?_of_ne hOther hValid hNe n correlation
  · rintro task ⟨p, hOwn, hRefers⟩
    exact hCleared.task task ⟨p, hMem.mpr hOwn, hRefers⟩
  · intro task hNone
    exact hCleared.taskKept task fun p hThere =>
      hNone p (hMem.mp hThere)
  · have hRest : after = { m with store := after.store } :=
      m.clear_rest subscription
    have hStillRuns : after.stopped = false := by
      rw [hRest]
      exact hRuns
    apply clear_of_text?_eq_none hStillRuns hValid
    intro n key hStarts
    rw [hCleared.text?_eq, if_pos hStarts]

------------------------------------------------------------
-- A subscription beside one whose name goes on
------------------------------------------------------------

/-
  A matcher that holds an entry of the subscription with its
  task, a text of no meaning under a key of another one, and a
  task that no entry names.
-/
def besideMisread : Matcher :=
  { store :=
      Pending.write .relayed seenKey
        ((Event.relayed seenRelay).recordText "first" 0)
        (Pending.write .awaitingOrigin "journeys2:key" "1"
          (TaskQueue.schedule
            [⟨"first", sweepType, .null⟩,
              ⟨"second", sweepType, .null⟩] .empty))
    tags := .counted
    expiry := 0
    stopped := false }

/- Its one entry of the subscription. -/
theorem only_besideMisread
    {n : Namespace}
    {key text : String}
    (hStarts :
      Level.startsWith (subscriptionStart "journeys") key = true)
    (hText :
      Pending.text? n key besideMisread.store = some text) :
    n = .relayed ∧ key = seenKey
      ∧ text = (Event.relayed seenRelay).recordText "first" 0 := by
  simp only [besideMisread, Pending.text?_write] at hText
  split at hText
  · rename_i hHere
    exact ⟨hHere.1, hHere.2, (Option.some.inj hText).symm⟩
  · split at hText
    · rename_i hOther
      rw [hOther.2] at hStarts
      exact absurd hStarts (by decide)
    · rw [Pending.text?_schedule] at hText
      cases hText

theorem decode_besideMisread :
    ∃ message,
      decodeStored (PendingRecord Json)
          ((Event.relayed seenRelay).recordText "first" 0)
        = .ok ⟨message, "first", 0⟩ := by
  rw [Event.decodeJson_recordText]
  exact ⟨_, rfl⟩

theorem clear_exact_besideMisread :
    ∃ after,
      besideMisread.clear "journeys" = (.ok 1, after)
        ∧ Pending.text? .relayed seenKey after.store = none
        ∧ Pending.text? .awaitingOrigin "journeys2:key"
            after.store
          = some "1"
        ∧ TaskQueue.text? "first" after.store = none
        ∧ TaskQueue.text? "second" after.store
          = TaskQueue.text? "second" besideMisread.store
        ∧ after.clear "journeys" = (.ok 0, after) := by
  rcases decode_besideMisread with ⟨message, hDecode⟩
  have hHeld :
      Pending.text? .relayed seenKey besideMisread.store
        = some
          ((Event.relayed seenRelay).recordText "first" 0) := by
    simp [besideMisread]
  have hBeside :
      Pending.text? .awaitingOrigin "journeys2:key"
          besideMisread.store
        = some "1" := by
    simp [besideMisread]
  have hOwn :
      Level.startsWith (subscriptionStart "journeys") seenKey
        = true :=
    (Event.startsWith_key key_seenRelay).2
  have hValid : ValidSubscription "journeys" := by decide
  have hKeys :
      Pending.ownKeys "journeys" besideMisread.store
        = {(.relayed, seenKey)} := by
    ext ⟨n, key⟩
    rw [Set.mem_singleton_iff, Prod.mk.injEq]
    constructor
    · rintro ⟨hThere, hStarts⟩
      rcases Option.ne_none_iff_exists'.mp hThere with
        ⟨text, hText⟩
      have hOnly := only_besideMisread hStarts hText
      exact ⟨hOnly.1, hOnly.2.1⟩
    · rintro ⟨hName, hKey⟩
      subst hName hKey
      refine ⟨?_, hOwn⟩
      change Pending.text? _ _ _ ≠ none
      rw [hHeld]
      exact Option.some_ne_none _
  have hExact :=
    clear_exact (m := besideMisread) rfl hValid
      fun n key text hStarts hText =>
        ⟨_, (only_besideMisread hStarts hText).2.2 ▸ hDecode⟩
  generalize besideMisread.clear "journeys" = result at hExact ⊢
  rcases result with ⟨reply, after⟩
  rcases hExact with
    ⟨⟨count, hCount, hResult, -⟩, hEntry, -, hGone, hKept, -, -,
      hAgain⟩
  have hOne : count = 1 := by
    rw [hKeys, Set.encard_singleton] at hCount
    exact_mod_cast hCount.symm
  rw [hOne] at hResult
  refine
    ⟨after, congrArg (·, after) hResult, ?_, ?_, ?_, ?_, hAgain⟩
  · rw [hEntry, if_pos hOwn]
  · rw [hEntry, if_neg (by decide), hBeside]
  · apply hGone
    refine
      ⟨(.relayed, seenKey), ?_, _, _, hHeld, hDecode, rfl⟩
    rw [hKeys]
    exact Set.mem_singleton _
  · apply hKept
    rintro p ⟨-, hStarts⟩ ⟨text, r, hText, hRecord, hTask⟩
    rw [(only_besideMisread hStarts hText).2.2, hDecode]
      at hRecord
    cases hRecord
    change "first" = "second" at hTask
    exact absurd hTask (by decide)

end Matcher

end JourneyMatch

import JourneyMatch.Admin.Query
import JourneyMatch.Proofs.Matcher.Changes
import JourneyMatch.Proofs.Store.Comparison
import JourneyMatch.Service.Basic

/-
  This file treats the calls that remove entries: clearing a
  subscription, deleting one entry, and firing the tasks that
  are due. What each step of such a call keeps is kept by the
  whole call; in particular, none of them adds an entry.

  Key definitions include:
    * `Pending.KeptByTaking`

  Main statements:
    * `Matcher.clear_keeps`
    * `Admin.deletePending_keeps`
    * `fireDue_keeps`
    * `Store.Within.clear`
    * `Store.Within.deletePending`
    * `Store.Within.fireDue`
-/

namespace JourneyMatch

------------------------------------------------------------
-- Entries that are taken with their tasks
------------------------------------------------------------

/-
  Taking an entry of any kind removes it, with the task that
  its record names; nothing has changed otherwise.
-/
theorem Pending.take_cases
    {n : Namespace}
    {key : String}
    {s after : Store}
    {result : Except StoreError (Option (PendingRecord Json))}
    (hTake :
      (s.onLevel n.name fun l => l.take (PendingRecord Json) key)
        = (result, after)) :
    (∀ r, result ≠ .ok (some r))
      ∨ ∃ text r,
        result = .ok (some r)
          ∧ text? n key s = some text
          ∧ decodeStored (PendingRecord Json) text = .ok r
          ∧ after = remove n key s := by
  rw [onLevel_take] at hTake
  cases hGet : (level n s).get (PendingRecord Json) key with
  | error cause =>
      rw [hGet] at hTake
      cases hTake
      exact .inl (fun r => by simp)
  | ok found =>
      cases found with
      | none =>
          rw [hGet] at hTake
          cases hTake
          exact .inl (fun r => by simp)
      | some r =>
          rw [hGet] at hTake
          cases hTake
          unfold Level.get at hGet
          cases hText : (level n s).find? key with
          | none => simp [hText, decodeStored?] at hGet
          | some text =>
              rw [hText] at hGet
              simp only [decodeStored?] at hGet
              cases hDecode :
                  decodeStored (PendingRecord Json) text with
              | error cause =>
                  simp [hDecode, Except.map] at hGet
              | ok found =>
                  simp only [hDecode, Except.map] at hGet
                  cases hGet
                  exact .inr
                    ⟨text, r, rfl, hText, hDecode, rfl⟩

/- What is kept when an entry is taken with its task. -/
def Pending.KeptByTaking
    (P : Store → Prop) : Prop :=
  ∀ n key text r s,
    P s →
      text? n key s = some text →
        decodeStored (PendingRecord Json) text = .ok r →
          P (TaskQueue.cancel r.expiryTask (remove n key s)).2

/- Clearing keeps what taking one entry keeps. -/
theorem Matcher.clearKeys_keeps
    {P : Store → Prop}
    (hTaking : Pending.KeptByTaking P)
    (keys : List (Namespace × String))
    {m : Matcher}
    (hBefore : P m.store) :
    P (m.clearKeys keys).2.store := by
  induction keys generalizing m with
  | nil => exact hBefore
  | cons head rest ih =>
      rcases head with ⟨n, key⟩
      rw [clearKeys]
      rcases hTake :
          m.store.onLevel n.name
            fun l => l.take (PendingRecord Json) key with
        ⟨result, after⟩
      rcases Pending.take_cases hTake with
        hNone | ⟨text, r, hResult, hText, hDecode, hAfter⟩
      · rcases result with cause | _ | r
        · exact hBefore
        · exact ih hBefore
        · exact absurd rfl (hNone r)
      · subst hResult hAfter
        have hTaken :
            P (Matcher.cancel r.expiryTask
              { m with
                store := Pending.remove n key m.store }).store :=
          hTaking n key text r m.store hBefore hText hDecode
        exact ih hTaken

/- A clearing that is refused changes nothing. -/
theorem Matcher.clear_cases
    (subscription : String)
    (m : Matcher) :
    (m.clear subscription).2 = m
      ∨ (m.clear subscription).2
        = (m.clearKeys
          (Pending.subscriptionKeys subscription m.store)).2 := by
  unfold clear
  split
  · exact .inl rfl
  · split
    · right
      simp only []
      split <;> rename_i hClear <;> rw [hClear]
    · exact .inl rfl

theorem Matcher.clear_keeps
    {P : Store → Prop}
    (hTaking : Pending.KeptByTaking P)
    (subscription : String)
    {m : Matcher}
    (hBefore : P m.store) :
    P (m.clear subscription).2.store := by
  rcases m.clear_cases subscription with hClear | hClear
  · rw [hClear]
    exact hBefore
  · rw [hClear]
    exact clearKeys_keeps hTaking _ hBefore

/- So does deleting one. -/
theorem Admin.deletePending_keeps
    {P : Store → Prop}
    (hTaking : Pending.KeptByTaking P)
    (n : Namespace)
    (key : String)
    {s : Store}
    (hBefore : P s) :
    P (deletePending n key s).2 := by
  unfold deletePending
  rcases hTake :
      s.onLevel n.name
        fun l => l.take (PendingRecord Json) key with
    ⟨result, after⟩
  rcases Pending.take_cases hTake with
    hNone | ⟨text, r, hResult, hText, hDecode, hAfter⟩
  · rcases result with cause | _ | r
    · exact hBefore
    · exact hBefore
    · exact absurd rfl (hNone r)
  · subst hResult hAfter
    exact hTaking n key text r s hBefore hText hDecode

/- Clearing keeps the rest of the matcher. -/
theorem Matcher.clearKeys_rest
    (keys : List (Namespace × String))
    (m : Matcher) :
    (m.clearKeys keys).2
      = { m with store := (m.clearKeys keys).2.store } := by
  induction keys generalizing m with
  | nil => rfl
  | cons head rest ih =>
      rcases head with ⟨n, key⟩
      rw [clearKeys]
      rcases
          m.store.onLevel n.name
            fun l => l.take (PendingRecord Json) key with
        ⟨cause | _ | r, after⟩
      · rfl
      · exact ih m
      · exact ih _

theorem Matcher.clear_rest
    (subscription : String)
    (m : Matcher) :
    (m.clear subscription).2
      = { m with store := (m.clear subscription).2.store } := by
  rcases m.clear_cases subscription with hClear | hClear
  · rw [hClear]
  · rw [hClear]
    exact m.clearKeys_rest _

------------------------------------------------------------
-- Tasks that are fired
------------------------------------------------------------

/-
  Firing keeps what is kept when a task is cancelled and when
  a listener is called.
-/
theorem fireAll_keeps
    {P : Store → Prop}
    {listeners : Listeners}
    (hCancel : ∀ key s, P s → P (TaskQueue.cancel key s).2)
    (hListen :
      ∀ type listener,
        listeners.find? type = some listener →
          ∀ task s, P s → P (listener task s).2)
    (noted : List (String × String))
    {s : Store}
    (hBefore : P s) :
    P (fireAll listeners noted s).2 := by
  induction noted generalizing s with
  | nil => exact hBefore
  | cons head rest ih =>
      rcases head with ⟨key, text⟩
      rw [fireAll]
      apply ih
      unfold fireOne
      have hCancelled := hCancel key s hBefore
      rcases hCase : TaskQueue.cancel key s with ⟨_ | _, after⟩
      · rw [hCase] at hCancelled
        exact hCancelled
      · rw [hCase] at hCancelled
        cases decodeStored StoredTask text with
        | error cause => exact hCancelled
        | ok stored =>
            simp only [dispatch]
            cases hFind : listeners.find?
                (Task.ofStored key stored).type with
            | none => exact hCancelled
            | some listener =>
                exact hListen _ listener hFind _ _ hCancelled

/- The janitor is the only listener at the beginning. -/
theorem Service.find?_firstListeners
    (type : String) :
    firstListeners.find? type
      = if type = sweepType then some Janitor.sweep
        else none := by
  rw [firstListeners, Listeners.find?_register,
    Listeners.find?_nil]

theorem fireDue_keeps
    {P : Store → Prop}
    (hCancel : ∀ key s, P s → P (TaskQueue.cancel key s).2)
    (hSweep : ∀ task s, P s → P (Janitor.sweep task s).2)
    (now : Instant)
    {s : Store}
    (hBefore : P s) :
    P (fireDue Service.firstListeners now s).2 := by
  apply fireAll_keeps hCancel _ _ hBefore
  intro type listener hFind task s hP
  rw [Service.find?_firstListeners] at hFind
  split at hFind
  · cases hFind
    exact hSweep task s hP
  · cases hFind

------------------------------------------------------------
-- Removals add nothing
------------------------------------------------------------

namespace Store.Within

theorem keptByTaking
    (t : Store) :
    Pending.KeptByTaking fun s => s.Within t := by
  intro n key text r s hWithin _ _
  exact (cancel r.expiryTask _).trans
    ((remove n key s).trans hWithin)

theorem clear
    (subscription : String)
    (m : Matcher) :
    (m.clear subscription).2.store.Within m.store :=
  Matcher.clear_keeps (keptByTaking m.store) subscription
    (refl m.store)

theorem deletePending
    (n : Namespace)
    (key : String)
    (s : Store) :
    (Admin.deletePending n key s).2.Within s :=
  Admin.deletePending_keeps (keptByTaking s) n key (refl s)

/- A sweep removes at most one entry. -/
theorem sweep
    (task : Task)
    (s : Store) :
    (Janitor.sweep task s).2.Within s := by
  unfold Janitor.sweep
  split
  · exact refl s
  · split
    · exact refl s
    · exact deleteIf _ _ _ s

theorem fireDue
    (now : Instant)
    (s : Store) :
    (JourneyMatch.fireDue
      Service.firstListeners now s).2.Within s := by
  apply fireDue_keeps (P := fun t => t.Within s)
  · intro key t hWithin
    exact (cancel key t).trans hWithin
  · intro task t hWithin
    exact (sweep task t).trans hWithin
  · exact refl s

end Store.Within

end JourneyMatch

import JourneyMatch.Proofs.Store.Frame

/-
  This file compares stores by their entries and their tasks:
  two stores agree if they have the same ones, and one is
  within another if it has no others.

  Key definitions include:
    * `Store.Agree`
    * `Store.Within`

  Main statements:
    * `Store.Within.cancel`
    * `Store.Within.remove`
    * `Store.Within.deleteIf`
-/

namespace JourneyMatch

------------------------------------------------------------
-- Stores that agree
------------------------------------------------------------

/- Two stores with the same entries and the same tasks. -/
structure Store.Agree
    (s t : Store) : Prop where
  entries :
    ∀ n key, Pending.text? n key s = Pending.text? n key t
  tasks :
    ∀ task, TaskQueue.text? task s = TaskQueue.text? task t

theorem Store.Agree.refl
    (s : Store) :
    s.Agree s :=
  ⟨fun _ _ => rfl, fun _ => rfl⟩

------------------------------------------------------------
-- Stores within others
------------------------------------------------------------

/- Whether every entry and task of one store is in another. -/
structure Store.Within
    (s t : Store) : Prop where
  entries :
    ∀ n key text,
      Pending.text? n key s = some text →
        Pending.text? n key t = some text
  tasks :
    ∀ task text,
      TaskQueue.text? task s = some text →
        TaskQueue.text? task t = some text

namespace Store.Within

theorem refl
    (s : Store) :
    s.Within s :=
  ⟨fun _ _ _ hText => hText, fun _ _ hText => hText⟩

theorem trans
    {s t u : Store}
    (hFirst : s.Within t)
    (hSecond : t.Within u) :
    s.Within u :=
  ⟨fun n key text hText =>
      hSecond.entries n key text
        (hFirst.entries n key text hText),
    fun task text hText =>
      hSecond.tasks task text (hFirst.tasks task text hText)⟩

theorem cancel
    (task : String)
    (s : Store) :
    (TaskQueue.cancel task s).2.Within s := by
  constructor
  · intro n key text hText
    rwa [Pending.text?_cancel] at hText
  · intro other text hText
    rw [TaskQueue.text?_cancel] at hText
    split at hText
    · cases hText
    · exact hText

theorem remove
    (n : Namespace)
    (key : String)
    (s : Store) :
    (Pending.remove n key s).Within s := by
  constructor
  · intro m other text hText
    exact Pending.text?_of_text?_remove hText
  · intro task text hText
    rwa [TaskQueue.text?_remove] at hText

/- Deleting a key of any level adds nothing. -/
theorem deleteIf
    (name key : String)
    (accepts : String → Bool)
    (s : Store) :
    (s.onLevel name fun l => l.deleteIf key accepts).2.Within
      s := by
  have hLevel :
      ∀ (other found text : String),
        ((s.onLevel name fun l =>
            l.deleteIf key accepts).2.level other).find? found
            = some text →
          (s.level other).find? found = some text := by
    intro other found text hText
    simp only [Store.onLevel, Store.level_setLevel] at hText
    split at hText
    · rename_i hName
      subst hName
      simp only [Level.deleteIf] at hText
      split at hText
      · exact hText
      · split at hText
        · rw [SortedMap.find?_erase] at hText
          split at hText
          · cases hText
          · exact hText
        · exact hText
    · exact hText
  exact ⟨fun n => hLevel n.name, hLevel TaskQueue.level⟩

end Store.Within

end JourneyMatch

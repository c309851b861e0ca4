import JourneyMatch.Proofs.Store.Sweep

/-
  This file says what is left when noted tasks of the janitor
  are fired on any store, be it paired or not. The tasks are
  gone, and an entry is gone if one of the tasks names it and
  may remove its text; a task that is left over from an
  earlier entry takes nothing but itself along.

  Key definitions include:
    * `Store.Fired`

  Main statements:
    * `TaskQueue.any_before_iff`
    * `Store.fired_fireAll`
    * `Store.fired_fireDue`
-/

namespace JourneyMatch

------------------------------------------------------------
-- One task
------------------------------------------------------------

/- The task that sweeps an entry, as it is dispatched. -/
def sweepTask
    (n : Namespace)
    (key task : String) : Task :=
  Task.ofStored task
    ⟨sweepType, (SweepPayload.mk n.name key).json⟩

/- A text that is accepted is removed, and nothing else. -/
theorem Level.find?_deleteIf
    (l : Level)
    (key other : String)
    (accepts : String → Bool) :
    (l.deleteIf key accepts).2.find? other
      = if other = key then
          (l.find? key).filter (!accepts ·)
        else l.find? other := by
  unfold deleteIf
  by_cases hKey : other = key
  · subst hKey
    rw [if_pos rfl]
    cases hText : l.find? other with
    | none => simp [hText]
    | some text =>
        cases hAccepts : accepts text <;>
          simp [hText, hAccepts, Option.filter]
  · rw [if_neg hKey]
    split
    · rfl
    · split <;> simp [Ne.symm hKey]

theorem Pending.text?_deleteIf
    (n m : Namespace)
    (key other : String)
    (accepts : String → Bool)
    (s : Store) :
    text? m other
        (s.onLevel n.name fun l => l.deleteIf key accepts).2
      = if m = n ∧ other = key then
          (text? n key s).filter (!accepts ·)
        else text? m other s := by
  unfold text? Store.onLevel
  rw [level_setLevel_name]
  by_cases hName : m = n
  · subst hName
    simp only [if_true, Level.find?_deleteIf, true_and]
    rfl
  · simp [hName]

/- The janitor removes the text that the task may remove. -/
theorem Janitor.text?_sweep
    (n m : Namespace)
    (key other task : String)
    (s : Store) :
    Pending.text? m other
        (Janitor.sweep (sweepTask n key task) s).2
      = if m = n ∧ other = key then
          (Pending.text? n key s).filter (!sweptBy task ·)
        else Pending.text? m other s := by
  simp only [Janitor.sweep, sweepTask, Task.ofStored,
    decode_sweepPayload]
  cases hExisting : s.existing n.name with
  | ok l => exact Pending.text?_deleteIf n m key other _ s
  | error cause =>
      have hNone : Pending.text? n key s = none := by
        cases hText : Pending.text? n key s with
        | none => rfl
        | some text =>
            rw [Store.existing_of_find? hText] at hExisting
            cases hExisting
      by_cases hHere : m = n ∧ other = key
      · rw [if_pos hHere, hHere.1, hHere.2, hNone]
        rfl
      · rw [if_neg hHere]

/- The janitor cancels no task. -/
theorem Janitor.task_sweep
    (n : Namespace)
    (key task other : String)
    (s : Store) :
    TaskQueue.text? other
        (Janitor.sweep (sweepTask n key task) s).2
      = TaskQueue.text? other s := by
  simp only [Janitor.sweep, sweepTask, Task.ofStored,
    decode_sweepPayload]
  split
  · rfl
  · simp [Store.onLevel, TaskQueue.text?]

/- A task of the queue is cancelled and dispatched. -/
theorem fireOne_sweepText
    {n : Namespace}
    {key task text : String}
    {s : Store}
    (hTask : TaskQueue.text? task s = some text) :
    (fireOne Service.firstListeners task (sweepText n key) s).2
      = (Janitor.sweep (sweepTask n key task)
          (TaskQueue.cancel task s).2).2 := by
  have hCancel :
      TaskQueue.cancel task s
        = (true, (TaskQueue.cancel task s).2) := by
    apply Prod.ext
    · rw [TaskQueue.cancel_fst, hTask]
      rfl
    · rfl
  have hListener :
      Service.firstListeners.find? (sweepTask n key task).type
        = some Janitor.sweep := rfl
  unfold fireOne
  rw [hCancel]
  simp only [decodeStored_sweepText, dispatch]
  rw [← sweepTask, hListener]

------------------------------------------------------------
-- All noted tasks
------------------------------------------------------------

/-
  Whether a store has lost noted tasks, and the texts that
  they may remove, and nothing else.
-/
structure Store.Fired
    (noted : List (String × String))
    (s t : Store) : Prop where
  task :
    ∀ task,
      TaskQueue.text? task t
        = if task ∈ noted.map (·.1) then none
          else TaskQueue.text? task s
  entry :
    ∀ n key,
      Pending.text? n key t
        = (Pending.text? n key s).filter fun text =>
          !noted.any fun entry =>
            entry.2 = sweepText n key && sweptBy entry.1 text

/-
  Some task below a bound removes a text, just if the one
  task that may remove it is among them and asks for it.
-/
theorem TaskQueue.any_before_iff
    {owner text : String}
    (hOwner :
      ∀ task, sweptBy task text = decide (owner = task))
    (n : Namespace)
    (key bound : String)
    (s : Store) :
    ((of s).before bound).any (fun entry =>
        entry.2 = sweepText n key && sweptBy entry.1 text)
        = true
      ↔ text? owner s = some (sweepText n key)
        ∧ owner < bound := by
  rw [List.any_eq_true]
  constructor
  · rintro ⟨⟨task, found⟩, hMem, hMay⟩
    rcases List.mem_filter.mp hMem with ⟨hThere, hBelow⟩
    rw [hOwner, Bool.and_eq_true, decide_eq_true_iff,
      decide_eq_true_iff] at hMay
    rcases hMay with ⟨hSweep, hTask⟩
    subst hTask hSweep
    exact ⟨SortedMap.mem_entries_iff.mp hThere,
      of_decide_eq_true hBelow⟩
  · rintro ⟨hText, hBelow⟩
    refine
      ⟨(owner, sweepText n key),
        List.mem_filter.mpr ⟨?_, decide_eq_true hBelow⟩, ?_⟩
    · exact SortedMap.mem_entries_iff.mpr hText
    · simp [hOwner]

namespace Store

theorem Fired.refl
    (s : Store) :
    s.Fired [] s := by
  constructor
  · intro task
    simp
  · intro n key
    cases Pending.text? n key s <;> rfl

/- One task is fired after the other. -/
theorem Fired.trans
    {first second : List (String × String)}
    {s t u : Store}
    (hFirst : s.Fired first t)
    (hSecond : t.Fired second u) :
    s.Fired (first ++ second) u := by
  constructor
  · intro task
    rw [hSecond.task, hFirst.task, List.map_append]
    by_cases hLater : task ∈ second.map (·.1)
    · rw [if_pos hLater, if_pos (List.mem_append_right _ hLater)]
    · rw [if_neg hLater]
      simp only [List.mem_append, hLater, or_false]
  · intro n key
    rw [hSecond.entry, hFirst.entry, Option.filter_filter]
    congr
    funext text
    rw [List.any_append, Bool.not_or, Bool.and_comm]

/- A task that is fired leaves the rest of the queue. -/
theorem fired_one
    {n : Namespace}
    {key task text : String}
    {s : Store}
    (hTask : TaskQueue.text? task s = some text) :
    s.Fired [(task, sweepText n key)]
      (fireOne Service.firstListeners task (sweepText n key)
        s).2 := by
  rw [fireOne_sweepText hTask]
  constructor
  · intro other
    rw [Janitor.task_sweep, TaskQueue.text?_cancel]
    simp
  · intro m other
    rw [Janitor.text?_sweep, Pending.text?_cancel,
      Pending.text?_cancel]
    by_cases hHere : m = n ∧ other = key
    · rw [if_pos hHere, hHere.1, hHere.2]
      simp
    · rw [if_neg hHere]
      have hText : sweepText n key ≠ sweepText m other := by
        intro hEq
        rcases sweepText_injective hEq with ⟨hName, hKey⟩
        exact hHere ⟨hName.symm, hKey.symm⟩
      cases Pending.text? m other s <;>
        simp [hText, Option.filter]

/- Noted tasks of the queue are fired one by one. -/
theorem fired_fireAll
    (noted : List (String × String))
    {s : Store}
    (hDistinct : (noted.map (·.1)).Nodup)
    (hNoted :
      ∀ task text,
        (task, text) ∈ noted →
          TaskQueue.text? task s = some text)
    (hSweeps :
      ∀ task text,
        (task, text) ∈ noted →
          ∃ n key, text = sweepText n key) :
    s.Fired noted
      (fireAll Service.firstListeners noted s).2 := by
  induction noted generalizing s with
  | nil => exact Fired.refl s
  | cons head rest ih =>
      rcases head with ⟨task, text⟩
      rw [List.map_cons, List.nodup_cons] at hDistinct
      have hTask := hNoted task text List.mem_cons_self
      rcases hSweeps task text List.mem_cons_self with
        ⟨n, key, hText⟩
      subst hText
      have hOne :
          s.Fired [(task, sweepText n key)]
            (fireOne Service.firstListeners task
              (sweepText n key) s).2 :=
        fired_one hTask
      apply hOne.trans
      apply ih hDistinct.2
      · intro other found hMem
        rw [hOne.task, if_neg,
          hNoted other found (List.mem_cons_of_mem _ hMem)]
        intro hSame
        rw [List.map_cons, List.map_nil,
          List.mem_singleton] at hSame
        subst hSame
        exact hDistinct.1
          (List.mem_map.mpr ⟨(other, found), hMem, rfl⟩)
      · intro other found hMem
        exact hSweeps other found (List.mem_cons_of_mem _ hMem)

/- A sweep fires the tasks below its bound. -/
theorem fired_fireDue
    {s : Store}
    (now : Instant)
    (hSweeps :
      ∀ task text,
        TaskQueue.text? task s = some text →
          ∃ n key, text = sweepText n key) :
    s.Fired ((TaskQueue.of s).before (dueBound now))
      (fireDue Service.firstListeners now s).2 := by
  have hNoted :
      ∀ task text,
        (task, text) ∈ (TaskQueue.of s).before (dueBound now) →
          TaskQueue.text? task s = some text := by
    intro task text hMem
    exact SortedMap.mem_entries_iff.mp
      (List.mem_filter.mp hMem).1
  exact fired_fireAll _ (TaskQueue.nodup_due now s) hNoted
    fun task text hMem => hSweeps task text (hNoted task text hMem)

end Store

end JourneyMatch

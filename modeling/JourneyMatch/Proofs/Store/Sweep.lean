import Mathlib.Data.Finset.Card
import Mathlib.Data.Set.Card
import JourneyMatch.Proofs.Store.Paired
import JourneyMatch.Service.Basic

/-
  This file says what a sweep of a paired store does: the
  tasks below the bound are gone afterwards, each with the
  entry that names it, and everything else is as it was. One
  task is fired after the other, and each that is fired
  leaves the rest of those noted where they are.

  Key definitions include:
    * `Store.Swept`
    * `Task.AsksFor`
    * `TaskQueue.due`

  Main statements:
    * `Store.Swept.paired`
    * `Janitor.sweep_of_asksFor`
    * `Store.Paired.swept_fireAll`
    * `Store.Paired.swept_fireDue`
    * `Store.Paired.report_fireDue`
-/

namespace JourneyMatch

------------------------------------------------------------
-- Stores after a sweep
------------------------------------------------------------

/-
  Whether a store has lost some tasks and the entries that
  named them, and nothing else.
-/
structure Store.Swept
    (gone : List String)
    (s t : Store) : Prop where
  task :
    ∀ task, task ∈ gone → TaskQueue.text? task t = none
  taskKept :
    ∀ task, task ∉ gone →
      TaskQueue.text? task t = TaskQueue.text? task s
  entry :
    ∀ n key task,
      Pending.Names n key task s → task ∈ gone →
        Pending.text? n key t = none
  entryKept :
    ∀ n key,
      (∀ task, Pending.Names n key task s → task ∉ gone) →
        Pending.text? n key t = Pending.text? n key s
  others :
    ∀ name, name ∉ Matcher.levels → t.level name = s.level name

namespace Store.Swept

variable {first second : List String}
variable {n : Namespace}
variable {key task : String}
variable {s t u : Store}

theorem refl
    (s : Store) :
    s.Swept [] s :=
  { task := fun _ hMem => absurd hMem List.not_mem_nil
    taskKept := fun _ _ => rfl
    entry := fun _ _ _ _ hMem => absurd hMem List.not_mem_nil
    entryKept := fun _ _ _ => rfl
    others := fun _ _ => rfl }

/- A sweep adds no entry. -/
theorem text?_of_text?
    {text : String}
    (hSwept : s.Swept first t)
    (hAfter : Pending.text? n key t = some text) :
    Pending.text? n key s = some text := by
  by_cases hKept :
      ∀ task, Pending.Names n key task s → task ∉ first
  · rw [← hSwept.entryKept n key hKept, hAfter]
  · simp only [not_forall, not_not] at hKept
    rcases hKept with ⟨task, hNames, hGone⟩
    rw [hSwept.entry n key task hNames hGone] at hAfter
    cases hAfter

/- An entry that is left names the task that it named. -/
theorem names_of_names
    (hSwept : s.Swept first t)
    (hAfter : Pending.Names n key task t) :
    Pending.Names n key task s := by
  rcases hAfter with ⟨e, storedAt, hStorable, hName, hText⟩
  exact ⟨e, storedAt, hStorable, hName,
    hSwept.text?_of_text? hText⟩

/- What is left of a paired store is paired. -/
theorem paired
    (hSwept : s.Swept first t)
    (hPaired : s.Paired) :
    t.Paired := by
  have hLeft :
      ∀ {n key task},
        Pending.Names n key task s → task ∉ first →
          Pending.Names n key task t := by
    intro n key task hNames hKept
    apply hNames.congr
    apply hSwept.entryKept
    intro other hOther
    rwa [hOther.unique hNames]
  constructor
  · intro n key text hText
    rcases hPaired.entry n key text
        (hSwept.text?_of_text? hText) with
      ⟨task, hNames, hTask⟩
    have hKept : task ∉ first := by
      intro hGone
      rw [hSwept.entry n key task hNames hGone] at hText
      cases hText
    refine ⟨task, hLeft hNames hKept, ?_⟩
    rw [hSwept.taskKept task hKept, hTask]
  · intro task text hText
    have hKept : task ∉ first := by
      intro hGone
      rw [hSwept.task task hGone] at hText
      cases hText
    rw [hSwept.taskKept task hKept] at hText
    rcases hPaired.task task text hText with ⟨n, key, hNames⟩
    exact ⟨n, key, hLeft hNames hKept⟩

/- One sweep after the other. -/
theorem trans
    (hFirst : s.Swept first t)
    (hSecond : t.Swept second u) :
    s.Swept (first ++ second) u := by
  constructor
  · intro task hMem
    by_cases hLater : task ∈ second
    · exact hSecond.task task hLater
    · rw [hSecond.taskKept task hLater]
      exact hFirst.task task
        ((List.mem_append.mp hMem).resolve_right hLater)
  · intro task hMem
    rw [List.mem_append, not_or] at hMem
    rw [hSecond.taskKept task hMem.2,
      hFirst.taskKept task hMem.1]
  · intro n key task hNames hMem
    by_cases hEarlier : task ∈ first
    · have hNone := hFirst.entry n key task hNames hEarlier
      rw [hSecond.entryKept n key, hNone]
      rintro other ⟨_, _, _, _, hText⟩
      rw [hNone] at hText
      cases hText
    · have hKept :
          Pending.text? n key t = Pending.text? n key s := by
        apply hFirst.entryKept
        intro other hOther
        rwa [hOther.unique hNames]
      exact hSecond.entry n key task (hNames.congr hKept)
        ((List.mem_append.mp hMem).resolve_left hEarlier)
  · intro n key hKept
    have hOld :
        Pending.text? n key t = Pending.text? n key s := by
      apply hFirst.entryKept
      intro task hNames hMem
      exact hKept task hNames (List.mem_append_left _ hMem)
    rw [hSecond.entryKept n key, hOld]
    intro task hNames hMem
    exact hKept task (hFirst.names_of_names hNames)
      (List.mem_append_right _ hMem)
  · intro name hName
    rw [hSecond.others name hName, hFirst.others name hName]

/-
  The entry under a key is lost if the task that it names is,
  and is kept otherwise.
-/
theorem text?_eq
    {lost : Bool}
    (hSwept : s.Swept first t)
    (hPaired : s.Paired)
    (hLost :
      ∀ task, Pending.Names n key task s →
        (task ∈ first ↔ lost = true)) :
    Pending.text? n key t
      = if lost then none else Pending.text? n key s := by
  cases hText : Pending.text? n key s with
  | none =>
      have hKept := hSwept.entryKept n key (by
        rintro task ⟨_, _, _, _, hThere⟩
        rw [hText] at hThere
        cases hThere)
      rw [hKept, hText, ite_self]
  | some text =>
      rcases hPaired.entry n key text hText with
        ⟨task, hNames, -⟩
      split
      · rename_i hHere
        exact hSwept.entry n key task hNames
          ((hLost task hNames).mpr hHere)
      · rename_i hElse
        rw [← hText]
        apply hSwept.entryKept
        intro other hOther hMem
        exact hElse ((hLost other hOther).mp hMem)

/- So is the task itself. -/
theorem task_eq
    {lost : Bool}
    (hSwept : s.Swept first t)
    (hLost : task ∈ first ↔ lost = true) :
    TaskQueue.text? task t
      = if lost then none else TaskQueue.text? task s := by
  split
  · rename_i hHere
    exact hSwept.task task (hLost.mpr hHere)
  · rename_i hElse
    exact hSwept.taskKept task fun hMem =>
      hElse (hLost.mp hMem)

end Store.Swept

/- The level of a namespace is one of the matcher's. -/
theorem Namespace.name_mem_levels
    (n : Namespace) :
    n.name ∈ Matcher.levels := by
  cases n <;> decide

------------------------------------------------------------
-- Firing
------------------------------------------------------------

section Levels

variable {name key text : String}
variable {s : Store}

/- A level with an entry is one of the store. -/
theorem Store.find?_levels
    (hText : (s.level name).find? key = some text) :
    s.levels.find? name = some (s.level name) := by
  unfold level at hText ⊢
  cases hFind : s.levels.find? name with
  | none =>
      rw [hFind, Option.getD_none, SortedMap.find?_empty]
        at hText
      cases hText
  | some l => rfl

theorem Store.existing_of_find?
    (hText : (s.level name).find? key = some text) :
    s.existing name = .ok (s.level name) := by
  rw [existing, find?_levels hText]

/- It changes nothing to put it in its own place. -/
theorem Store.setLevel_level
    (hText : (s.level name).find? key = some text) :
    s.setLevel name (s.level name) = s := by
  rw [setLevel, SortedMap.insert_of_find? (find?_levels hText)]

/- Whether a task asks for the removal of a key of a level. -/
def Task.AsksFor
    (name key : String)
    (task : Task) : Prop :=
  Wire.decode SweepPayload task.payload = .ok ⟨name, key⟩

/-
  The janitor removes the text that a task asks for if the
  task may remove it, and changes nothing otherwise.
-/
theorem Janitor.sweep_of_asksFor
    {task : Task}
    (hText : (s.level name).find? key = some text)
    (hAsks : task.AsksFor name key) :
    Janitor.sweep task s
      = (true,
        if sweptBy task.key text then
          s.setLevel name ((s.level name).erase key)
        else s) := by
  have hDecode :
      Wire.decode SweepPayload task.payload
        = .ok ⟨name, key⟩ := hAsks
  unfold Janitor.sweep
  simp only [hDecode, Store.existing_of_find? hText,
    Store.onLevel, Level.deleteIf, hText]
  split
  · rfl
  · rw [Store.setLevel_level hText]

end Levels

/- The janitor removes the entry that names its task. -/
theorem Janitor.sweep_eq
    {n : Namespace}
    {key task : String}
    {s : Store}
    (hNames : Pending.Names n key task s) :
    Janitor.sweep
        (Task.ofStored task
          ⟨sweepType, (SweepPayload.mk n.name key).json⟩) s
      = (true, Pending.remove n key s) := by
  have hAsks :
      (Task.ofStored task
        ⟨sweepType, (SweepPayload.mk n.name key).json⟩).AsksFor
          n.name key :=
    decode_sweepPayload ⟨n.name, key⟩
  obtain ⟨text, hText⟩ :
      ∃ text, Pending.text? n key s = some text := by
    rcases hNames with ⟨e, storedAt, -, -, hText⟩
    exact ⟨_, hText⟩
  have hOwn : sweptBy task text = true := by
    rw [hNames.sweptBy_eq hText, decide_eq_true rfl]
  rw [Janitor.sweep_of_asksFor hText hAsks]
  change (true, if sweptBy task text then _ else _) = _
  rw [if_pos hOwn]
  rfl

/-
  Firing a task of a paired store succeeds, and removes the
  task and the entry that names it.
-/
theorem fireOne_eq
    {n : Namespace}
    {key task : String}
    {s : Store}
    (hPaired : s.Paired)
    (hNames : Pending.Names n key task s) :
    fireOne Service.firstListeners task (sweepText n key) s
      = (some
          ⟨task,
            some
              (Task.ofStored task
                ⟨sweepType, (SweepPayload.mk n.name key).json⟩),
            true⟩,
        Pending.remove n key (TaskQueue.cancel task s).2) := by
  have hTask := hPaired.text?_of_names hNames
  have hCancel :
      TaskQueue.cancel task s
        = (true, (TaskQueue.cancel task s).2) := by
    apply Prod.ext
    · rw [TaskQueue.cancel_fst, hTask]
      rfl
    · rfl
  have hStill :
      Pending.Names n key task (TaskQueue.cancel task s).2 :=
    hNames.congr (by simp)
  have hListener :
      Service.firstListeners.find?
          (Task.ofStored task
            ⟨sweepType, (SweepPayload.mk n.name key).json⟩).type
        = some Janitor.sweep := rfl
  unfold fireOne
  rw [hCancel]
  simp only [decodeStored_sweepText, dispatch, hListener,
    Janitor.sweep_eq hStill]

namespace Store.Paired

variable {n : Namespace}
variable {key task : String}
variable {s : Store}

/- A task is lost together with the entry that names it. -/
theorem swept_one
    (hPaired : s.Paired)
    (hNames : Pending.Names n key task s) :
    s.Swept [task]
      (Pending.remove n key (TaskQueue.cancel task s).2) := by
  constructor
  · intro other hMem
    simp [List.mem_singleton.mp hMem]
  · intro other hMem
    rw [List.mem_singleton] at hMem
    simp [hMem]
  · intro m other named hOther hMem
    rw [List.mem_singleton] at hMem
    subst hMem
    have hTask := hPaired.text?_of_names hOther
    rw [hPaired.text?_of_names hNames] at hTask
    rcases sweepText_injective (Option.some.inj hTask) with
      ⟨hName, hKey⟩
    simp [hName, hKey]
  · intro m other hKept
    have hElse : ¬ (m = n ∧ other = key) := by
      rintro ⟨hName, hKey⟩
      subst hName hKey
      exact hKept task hNames List.mem_cons_self
    rw [Pending.text?_remove, if_neg hElse,
      Pending.text?_cancel]
  · intro name hName
    have hNamespace : n.name ≠ name := by
      intro hEq
      exact hName (hEq ▸ n.name_mem_levels)
    have hQueue : TaskQueue.level ≠ name := by
      intro hEq
      exact hName (hEq ▸ List.mem_cons_self)
    simp [Pending.remove, TaskQueue.cancel, Store.onLevel,
      hNamespace, hQueue]

/-
  Noted tasks that are all in the queue are all fired, and
  each succeeds.
-/
theorem swept_fireAll
    (noted : List (String × String))
    (hPaired : s.Paired)
    (hDistinct : (noted.map (·.1)).Nodup)
    (hNoted :
      ∀ task text,
        (task, text) ∈ noted →
          TaskQueue.text? task s = some text) :
    s.Swept (noted.map (·.1))
        (JourneyMatch.fireAll
          Service.firstListeners noted s).2
      ∧ FiringReport.of
          (JourneyMatch.fireAll
            Service.firstListeners noted s).1
        = ⟨noted.length, 0⟩ := by
  induction noted generalizing s with
  | nil => exact ⟨Store.Swept.refl s, rfl⟩
  | cons head rest ih =>
      rcases head with ⟨task, text⟩
      rw [List.map_cons, List.nodup_cons] at hDistinct
      have hTask := hNoted task text List.mem_cons_self
      rcases hPaired.task task text hTask with ⟨n, key, hNames⟩
      have hText := hPaired.text?_of_names hNames
      rw [hTask] at hText
      cases hText
      have hOne := hPaired.swept_one hNames
      have hRest :
          ∀ other found,
            (other, found) ∈ rest →
              TaskQueue.text? other
                  (Pending.remove n key
                    (TaskQueue.cancel task s).2)
                = some found := by
        intro other found hMem
        rw [hOne.taskKept other,
          hNoted other found (List.mem_cons_of_mem _ hMem)]
        intro hSame
        rw [List.mem_singleton.mp hSame] at hMem
        exact hDistinct.1
          (List.mem_map.mpr ⟨(task, found), hMem, rfl⟩)
      rcases ih (hOne.paired hPaired) hDistinct.2 hRest with ⟨hSwept, hReport⟩
      rw [JourneyMatch.fireAll, fireOne_eq hPaired hNames]
      refine ⟨hOne.trans hSwept, ?_⟩
      simp only [FiringReport.of, FiringReport.mk.injEq] at hReport
      simp [FiringReport.of, hReport.1, hReport.2]

end Store.Paired

------------------------------------------------------------
-- Sweeps
------------------------------------------------------------

/- The keys of the tasks below the bound of an instant. -/
def TaskQueue.due
    (now : Instant)
    (s : Store) : List String :=
  ((of s).before (dueBound now)).map (·.1)

theorem TaskQueue.mem_due_iff
    {now : Instant}
    {task : String}
    {s : Store} :
    task ∈ due now s ↔
      (∃ text, text? task s = some text)
        ∧ task < dueBound now := by
  unfold due Level.before
  constructor
  · intro hMem
    rcases List.mem_map.mp hMem with ⟨⟨key, text⟩, hEntry, hKey⟩
    subst hKey
    rcases List.mem_filter.mp hEntry with ⟨hThere, hBelow⟩
    exact ⟨⟨text, SortedMap.mem_entries_iff.mp hThere⟩,
      of_decide_eq_true hBelow⟩
  · rintro ⟨⟨text, hText⟩, hBelow⟩
    apply List.mem_map.mpr
    refine ⟨(task, text), List.mem_filter.mpr ⟨?_, ?_⟩, rfl⟩
    · exact SortedMap.mem_entries_iff.mpr hText
    · exact decide_eq_true hBelow

/- Keys that are in order are different. -/
theorem TaskQueue.nodup_due
    (now : Instant)
    (s : Store) :
    (due now s).Nodup := by
  apply List.pairwise_map.mpr
  apply ((of s).ascending.sublist List.filter_sublist).imp
  intro a b hLess hSame
  exact String.lt_irrefl _ (hSame ▸ hLess)

namespace Store.Paired

variable {s : Store}

/- What is noted when a sweep begins is what it fires. -/
theorem fireDue_cases
    (hPaired : s.Paired)
    (now : Instant) :
    s.Swept (TaskQueue.due now s)
        (JourneyMatch.fireDue Service.firstListeners now s).2
      ∧ FiringReport.of
          (JourneyMatch.fireDue Service.firstListeners now s).1
        = ⟨(TaskQueue.due now s).length, 0⟩ := by
  rw [TaskQueue.due, List.length_map]
  apply hPaired.swept_fireAll _ (TaskQueue.nodup_due now s)
  intro task text hMem
  exact SortedMap.mem_entries_iff.mp (List.mem_filter.mp hMem).1

/- A sweep keeps stores paired. -/
theorem fireDue
    (hPaired : s.Paired)
    (now : Instant) :
    (JourneyMatch.fireDue
      Service.firstListeners now s).2.Paired :=
  (hPaired.fireDue_cases now).1.paired hPaired

/- The due tasks are lost, each with its entry. -/
theorem swept_fireDue
    (hPaired : s.Paired)
    (now : Instant) :
    s.Swept (TaskQueue.due now s)
      (JourneyMatch.fireDue Service.firstListeners now s).2 :=
  (hPaired.fireDue_cases now).1

/-
  The entries that a sweep loses are named one to one by the
  tasks that were due.
-/
theorem image_lost
    {gone : List String}
    {t : Store}
    (hPaired : s.Paired)
    (hSwept : s.Swept gone t)
    (hGone :
      ∀ task ∈ gone, ∃ text, TaskQueue.text? task s = some text) :
    (fun p => Pending.expiryTask? p.1 p.2 s)
        '' (Pending.keys s \ Pending.keys t)
      = some '' { task | task ∈ gone } := by
  apply Set.Subset.antisymm
  · rintro _ ⟨⟨n, key⟩, ⟨hMem, hLost⟩, rfl⟩
    rcases Option.ne_none_iff_exists'.mp hMem with ⟨text, hText⟩
    rcases hPaired.entry n key text hText with ⟨task, hNames, -⟩
    refine ⟨task, ?_, hNames.expiryTask?_eq.symm⟩
    by_contra hKept
    apply hLost
    change Pending.text? n key t ≠ none
    rw [hSwept.entryKept n key]
    · exact hMem
    · intro other hOther
      rwa [hOther.unique hNames]
  · rintro _ ⟨task, hMem, rfl⟩
    rcases hGone task hMem with ⟨text, hText⟩
    rcases hPaired.task task text hText with ⟨n, key, hNames⟩
    refine ⟨(n, key), ⟨?_, ?_⟩, hNames.expiryTask?_eq⟩
    · rcases hNames with ⟨_, _, _, _, hEntry⟩
      simp [Pending.keys, hEntry]
    · simp [Pending.keys,
        hSwept.entry n key task hNames hMem]

/- A sweep reports as many tasks as entries that it loses. -/
theorem report_fireDue
    (hPaired : s.Paired)
    (now : Instant) :
    ∃ count : Nat,
      (Pending.keys s
          \ Pending.keys
            (JourneyMatch.fireDue
              Service.firstListeners now s).2).encard
          = count
        ∧ FiringReport.of
            (JourneyMatch.fireDue Service.firstListeners now s).1
          = ⟨count, 0⟩ := by
  rcases hPaired.fireDue_cases now with ⟨hSwept, hReport⟩
  refine ⟨_, ?_, hReport⟩
  have hImage :=
    hPaired.image_lost hSwept fun task hMem =>
      (TaskQueue.mem_due_iff.mp hMem).1
  have hInjective :=
    hPaired.bijOn.injOn.mono
      (Set.sdiff_subset
        (s := Pending.keys s)
        (t := Pending.keys
          (JourneyMatch.fireDue
            Service.firstListeners now s).2))
  calc
    _ = (some '' { task | task ∈ TaskQueue.due now s }).encard := by
        rw [← hImage, hInjective.encard_image]
    _ = ({ task | task ∈ TaskQueue.due now s }).encard :=
        (Option.some_injective _).encard_image _
    _ = (TaskQueue.due now s).length := by
        rw [← List.coe_toFinset,
          Set.encard_coe_eq_coe_finsetCard,
          List.toFinset_card_of_nodup
            (TaskQueue.nodup_due now s)]

end Store.Paired

end JourneyMatch

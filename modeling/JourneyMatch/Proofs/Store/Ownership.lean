import JourneyMatch.Proofs.Store.Fired

/-
  This file says by which task a record is removed: by the
  one that it names, and by no other, whatever its message
  is. A task that an earlier record left behind under the
  same key leaves the store as it is, and a whole sweep
  removes the record just if its own task is among those
  that are due.

  Key definitions include:
    * `TaskQueue.OnlySweeps`

  Main statements:
    * `Janitor.sweep_record`
    * `Pending.text?_fireDue_record`
    * `PendingRecord.removed_by_own_task`
-/

namespace JourneyMatch

------------------------------------------------------------
-- One task
------------------------------------------------------------

theorem Task.asksFor_sweepTask
    (n : Namespace)
    (key task : String) :
    (sweepTask n key task).AsksFor n.name key :=
  decode_sweepPayload ⟨n.name, key⟩

section Records

variable {α : Type} [Wire α]
variable {r : PendingRecord α}
variable {s : Store}

/-
  A record is removed by the task that it names. Any other
  task changes nothing.
-/
theorem Janitor.sweep_record
    {name key : String}
    {task : Task}
    (hText : (s.level name).find? key = some (Wire.text r))
    (hAsks : task.AsksFor name key) :
    Janitor.sweep task s
      = (true,
        if r.expiryTask = task.key then
          s.setLevel name ((s.level name).erase key)
        else s) := by
  rw [sweep_of_asksFor hText hAsks, sweptBy_record]
  simp only [decide_eq_true_iff]

------------------------------------------------------------
-- All tasks that are due
------------------------------------------------------------

/- Whether the queue holds removals of waiting entries only. -/
def TaskQueue.OnlySweeps
    (s : Store) : Prop :=
  ∀ task text,
    text? task s = some text → ∃ n key, text = sweepText n key

/-
  A sweep removes a record if the task that it names asks for
  the record and is due, however many others are.
-/
theorem Pending.text?_fireDue_record
    {n : Namespace}
    {key : String}
    (hText : text? n key s = some (Wire.text r))
    (hSweeps : TaskQueue.OnlySweeps s)
    (now : Instant) :
    text? n key (fireDue Service.firstListeners now s).2
      = if TaskQueue.text? r.expiryTask s
            = some (sweepText n key)
          ∧ r.expiryTask < dueBound now then
          none
        else some (Wire.text r) := by
  have hAny :=
    TaskQueue.any_before_iff (sweptBy_record r) n key
      (dueBound now) s
  rw [(Store.fired_fireDue now hSweeps).entry, hText]
  split
  · rename_i hDue
    simp only [Option.filter, hAny.mpr hDue, Bool.not_true,
      Bool.false_eq_true, if_false]
  · rename_i hKept
    rw [← hAny, Bool.not_eq_true] at hKept
    simp only [Option.filter, hKept, Bool.not_false, if_true]

end Records

------------------------------------------------------------
-- Records that are put
------------------------------------------------------------

/-
  What is put for a record is a text that the record's own
  task may remove, and no other task. As long as it stands in
  a store, the record's task takes it out when it is carried
  out and changes nothing else, and any other task for the
  same key changes nothing at all; and a sweep of the whole
  queue removes it just if its own task is due.
-/
theorem PendingRecord.removed_by_own_task
    {α : Type}
    [Wire α]
    (r : PendingRecord α)
    (key : String)
    (l : Level) :
    ∃ text,
      (l.put key r).2.find? key = some text
        ∧ (∀ task,
          sweptBy task text = true ↔ r.expiryTask = task)
        ∧ (∀ (s : Store) (name : String) (task : Task),
          (s.level name).find? key = some text →
            task.AsksFor name key →
              Janitor.sweep task s
                = (true,
                  if r.expiryTask = task.key then
                    s.setLevel name ((s.level name).erase key)
                  else s))
        ∧ ∀ (s : Store) (n : Namespace) (now : Instant),
          Pending.text? n key s = some text →
            TaskQueue.OnlySweeps s →
              Pending.text? n key
                  (fireDue Service.firstListeners now s).2
                = if TaskQueue.text? r.expiryTask s
                      = some (sweepText n key)
                    ∧ r.expiryTask < dueBound now then
                    none
                  else some text := by
  refine ⟨Wire.text r, ?_, ?_, ?_, ?_⟩
  · simp [Level.put]
  · intro task
    rw [sweptBy_record, decide_eq_true_iff]
  · intro s name task hText hAsks
    exact Janitor.sweep_record hText hAsks
  · intro s n now hText hSweeps
    exact Pending.text?_fireDue_record hText hSweeps now

/-
  A record whose message has the members of a record itself,
  one of them nested deeper than any text that is read, and
  whose task has characters that are escaped.
-/
def seenNested : PendingRecord Json :=
  { message :=
      .object
        [("expiryTask", .string "0::stale"),
          ("message",
            .array [.object [("expiryTask", .string "0::")]]),
          ("storedAt",
            Nat.repeat (fun j => .array [j]) 200 .null)]
    expiryTask := "0::\"\\\n"
    storedAt := 0 }

/- The record, its task, and one that was left behind. -/
def seenOwned : Store :=
  TaskQueue.schedule
    [sweepTask .relayed "key" seenNested.expiryTask]
    (TaskQueue.schedule [sweepTask .relayed "key" "0::stale"]
      (Store.empty.onLevel Namespace.relayed.name
        fun l => l.put "key" seenNested).2)

theorem TaskQueue.text?_seenOwned
    (task : String) :
    text? task seenOwned
      = if task = seenNested.expiryTask then
          some (sweepText .relayed "key")
        else if task = "0::stale" then
          some (sweepText .relayed "key")
        else none := by
  rw [seenOwned, text?_schedule_one, text?_schedule_one]
  rfl

theorem PendingRecord.removed_by_own_task_seenNested :
    let text := Wire.text seenNested
    let own := seenNested.expiryTask
    Pending.text? .relayed "key" seenOwned = some text
      ∧ TaskQueue.OnlySweeps seenOwned
      ∧ sweptBy "0::stale" text = false
      ∧ sweptBy own text = true
      ∧ Janitor.sweep (sweepTask .relayed "key" "0::stale")
          seenOwned
        = (true, seenOwned)
      ∧ Janitor.sweep (sweepTask .relayed "key" own) seenOwned
        = (true, Pending.remove .relayed "key" seenOwned)
      ∧ Pending.text? .relayed "key"
          (fireDue Service.firstListeners ⟨0⟩ seenOwned).2
        = none := by
  intro text own
  rcases seenNested.removed_by_own_task "key" .empty with
    ⟨found, hPut, hOwn, hOne, hAll⟩
  have hFound : found = text := by
    simpa [Level.put, eq_comm] using hPut
  subst hFound
  have hText :
      Pending.text? .relayed "key" seenOwned = some text := by
    rw [seenOwned, Pending.text?_schedule]
    rfl
  have hSweeps : TaskQueue.OnlySweeps seenOwned := by
    intro task found hTask
    rw [TaskQueue.text?_seenOwned] at hTask
    refine ⟨.relayed, "key", ?_⟩
    split at hTask
    · cases hTask
      rfl
    · split at hTask
      · cases hTask
        rfl
      · cases hTask
  have hStale : own ≠ "0::stale" := by decide
  refine ⟨hText, hSweeps, ?_, ?_, ?_, ?_, ?_⟩
  · rw [← Bool.not_eq_true, hOwn]
    exact hStale
  · rw [hOwn]
  · rw [hOne seenOwned _ _ hText
      (Task.asksFor_sweepTask .relayed "key" "0::stale"),
      if_neg]
    exact hStale
  · rw [hOne seenOwned _ _ hText
      (Task.asksFor_sweepTask .relayed "key" own)]
    rfl
  · rw [hAll seenOwned .relayed ⟨0⟩ hText hSweeps, if_pos]
    refine ⟨?_, ?_⟩
    · rw [TaskQueue.text?_seenOwned, if_pos rfl]
    · decide +kernel

end JourneyMatch

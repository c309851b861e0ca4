import JourneyMatch.Proofs.Store.Comparison
import JourneyMatch.Proofs.Task.Janitor
import Mathlib.Data.Set.Function

/-
  This file pairs entries and tasks. In a paired store every
  entry names one task of the queue, which names the entry,
  and every task of the queue is named by an entry. An entry
  that is added or removed together with its task leaves the
  store paired.

  Key definitions include:
    * `Pending.Names`
    * `Pending.expiryTask?`
    * `Store.Paired`

  Main statements:
    * `Store.Paired.drop`
    * `Store.Paired.add`
    * `Store.Paired.bijOn`
-/

namespace JourneyMatch

------------------------------------------------------------
-- Entries that name their tasks
------------------------------------------------------------

namespace Pending

/- The task that the record under a key names. -/
def expiryTask?
    (n : Namespace)
    (key : String)
    (s : Store) : Option String :=
  match record? n key s with
  | .ok (some r) => some r.expiryTask
  | _ => none

/- Whether the record of a storable event names a task. -/
def Names
    (n : Namespace)
    (key task : String)
    (s : Store) : Prop :=
  ∃ (e : Event) (storedAt : Int64),
    e.Storable
      ∧ e.nameSpace = n
      ∧ text? n key s = some (e.recordText task storedAt)

namespace Names

variable {n : Namespace}
variable {key task : String}
variable {s t : Store}

/- Entries are seen through the texts alone. -/
theorem congr
    (hNames : Names n key task s)
    (hText : text? n key t = text? n key s) :
    Names n key task t := by
  rcases hNames with ⟨e, storedAt, hStorable, hName, hRecord⟩
  exact ⟨e, storedAt, hStorable, hName, hText.trans hRecord⟩

/- What is read of the entry is a record with the task. -/
theorem record_eq
    (hNames : Names n key task s) :
    ∃ r,
      record? n key s = .ok (some r)
        ∧ r.expiryTask = task := by
  rcases hNames with ⟨e, storedAt, hStorable, hName, hText⟩
  subst hName
  refine ⟨⟨e, task, storedAt⟩, ?_, rfl⟩
  exact record?_eq_some_iff.mpr
    ⟨_, hText, hStorable.decode_recordText task storedAt⟩

theorem expiryTask?_eq
    (hNames : Names n key task s) :
    expiryTask? n key s = some task := by
  rcases hNames.record_eq with ⟨r, hRecord, hTask⟩
  simp only [expiryTask?, hRecord, hTask]

/- An entry names one task. -/
theorem unique
    {other : String}
    (hFirst : Names n key task s)
    (hSecond : Names n key other s) :
    task = other :=
  Option.some.inj
    (hFirst.expiryTask?_eq.symm.trans hSecond.expiryTask?_eq)

/- The same task is read without the form of the message. -/
theorem decodeJson_eq
    {text : String}
    {r : PendingRecord Json}
    (hNames : Names n key task s)
    (hText : text? n key s = some text)
    (hDecode : decodeStored (PendingRecord Json) text = .ok r) :
    r.expiryTask = task := by
  rcases hNames with ⟨e, storedAt, -, -, hRecord⟩
  rw [hText] at hRecord
  cases hRecord
  rw [Event.decodeJson_recordText] at hDecode
  cases hReread : Wire.reread 126 e.json with
  | error cause => simp [hReread] at hDecode
  | ok x =>
      simp only [hReread] at hDecode
      cases hDecode
      rfl

/- The task that an entry names may remove it, no other. -/
theorem sweptBy_eq
    {text other : String}
    (hNames : Names n key task s)
    (hText : text? n key s = some text) :
    sweptBy other text = decide (task = other) := by
  rcases hNames with ⟨e, storedAt, -, -, hRecord⟩
  rw [hText] at hRecord
  cases hRecord
  exact sweptBy_recordText e task other storedAt

end Names

end Pending

------------------------------------------------------------
-- Paired stores
------------------------------------------------------------

/-
  Whether every entry names a task of the queue that names
  the entry, and every task is named by an entry.
-/
structure Store.Paired
    (s : Store) : Prop where
  entry :
    ∀ n key text,
      Pending.text? n key s = some text →
        ∃ task,
          Pending.Names n key task s
            ∧ TaskQueue.text? task s = some (sweepText n key)
  task :
    ∀ task text,
      TaskQueue.text? task s = some text →
        ∃ n key, Pending.Names n key task s

namespace Store.Paired

variable {n : Namespace}
variable {key task : String}
variable {s t : Store}

/- The task that an entry names has the text of the entry. -/
theorem text?_of_names
    (hPaired : s.Paired)
    (hNames : Pending.Names n key task s) :
    TaskQueue.text? task s = some (sweepText n key) := by
  rcases hNames with ⟨e, storedAt, hStorable, hName, hText⟩
  rcases hPaired.entry n key _ hText with ⟨other, hOther, hTask⟩
  have hEq :=
    hOther.unique ⟨e, storedAt, hStorable, hName, hText⟩
  rwa [hEq] at hTask

/- A record that is read names its task. -/
theorem names_of_record?
    {r : PendingRecord Event}
    (hPaired : s.Paired)
    (hRecord : Pending.record? n key s = .ok (some r)) :
    Pending.Names n key r.expiryTask s := by
  rcases Pending.record?_eq_some_iff.mp hRecord with
    ⟨text, hText, -⟩
  rcases hPaired.entry n key text hText with ⟨task, hNames, -⟩
  rcases hNames.record_eq with ⟨other, hOther, hTask⟩
  rw [hRecord] at hOther
  cases hOther
  rwa [hTask]

/- So does a task that is read of it. -/
theorem names_of_expiryTask?
    (hPaired : s.Paired)
    (hTask : Pending.expiryTask? n key s = some task) :
    Pending.Names n key task s := by
  unfold Pending.expiryTask? at hTask
  split at hTask
  · rename_i r hRecord
    cases hTask
    exact hPaired.names_of_record? hRecord
  · cases hTask

/- No entry of a paired store fails to decode. -/
theorem exists_record?
    (hPaired : s.Paired)
    (n : Namespace)
    (key : String) :
    ∃ found, Pending.record? n key s = .ok found := by
  cases hText : Pending.text? n key s with
  | none => exact ⟨none, Pending.record?_of_text?_eq_none hText⟩
  | some text =>
      rcases hPaired.entry n key text hText with
        ⟨task, hNames, -⟩
      rcases hNames.record_eq with ⟨r, hRecord, -⟩
      exact ⟨some r, hRecord⟩

/- Pairing is seen through the entries and the tasks alone. -/
theorem of_agree
    (hPaired : s.Paired)
    (hAgree : s.Agree t) :
    t.Paired := by
  constructor
  · intro n key text hText
    rw [← hAgree.entries] at hText
    rcases hPaired.entry n key text hText with
      ⟨task, hNames, hTask⟩
    rw [hAgree.tasks] at hTask
    exact ⟨task, hNames.congr (hAgree.entries n key).symm, hTask⟩
  · intro task text hText
    rw [← hAgree.tasks] at hText
    rcases hPaired.task task text hText with ⟨n, key, hNames⟩
    exact ⟨n, key, hNames.congr (hAgree.entries n key).symm⟩

/- An entry may be removed together with its task. -/
theorem drop
    (hPaired : s.Paired)
    (hNames : Pending.Names n key task s)
    (hEntries :
      ∀ m other,
        Pending.text? m other t
          = if m = n ∧ other = key then none
            else Pending.text? m other s)
    (hTasks :
      ∀ other,
        TaskQueue.text? other t
          = if other = task then none
            else TaskQueue.text? other s) :
    t.Paired := by
  have hTask := hPaired.text?_of_names hNames
  constructor
  · intro m other text hText
    rw [hEntries] at hText
    split at hText
    · cases hText
    · rename_i hElse
      rcases hPaired.entry m other text hText with
        ⟨named, hOther, hFound⟩
      have hSame :
          Pending.text? m other t = Pending.text? m other s := by
        rw [hEntries, if_neg hElse]
      have hNe : named ≠ task := by
        intro hEq
        rw [hEq, hTask] at hFound
        rcases sweepText_injective (Option.some.inj hFound) with
          ⟨hName, hKey⟩
        exact hElse ⟨hName.symm, hKey.symm⟩
      exact ⟨named, hOther.congr hSame, by
        rw [hTasks, if_neg hNe, hFound]⟩
  · intro other text hText
    rw [hTasks] at hText
    split at hText
    · cases hText
    · rename_i hElse
      rcases hPaired.task other text hText with
        ⟨m, found, hOther⟩
      have hNe : ¬ (m = n ∧ found = key) := by
        rintro ⟨hName, hKey⟩
        subst hName hKey
        exact hElse (hOther.unique hNames)
      exact ⟨m, found, hOther.congr (by
        rw [hEntries, if_neg hNe])⟩

/- So may one be taken out, and its task cancelled then. -/
theorem taken
    (hPaired : s.Paired)
    (hNames : Pending.Names n key task s) :
    (TaskQueue.cancel task (Pending.remove n key s)).2.Paired :=
  hPaired.drop hNames
    (fun m other => by simp)
    (fun other => by simp)

/- An entry may be added together with a fresh task. -/
theorem add
    {e : Event}
    {storedAt : Int64}
    (hPaired : s.Paired)
    (hStorable : e.Storable)
    (hEmpty : Pending.text? e.nameSpace key s = none)
    (hFresh : TaskQueue.text? task s = none)
    (hEntries :
      ∀ m other,
        Pending.text? m other t
          = if m = e.nameSpace ∧ other = key then
              some (e.recordText task storedAt)
            else Pending.text? m other s)
    (hTasks :
      ∀ other,
        TaskQueue.text? other t
          = if other = task then
              some (sweepText e.nameSpace key)
            else TaskQueue.text? other s) :
    t.Paired := by
  have hNew : Pending.Names e.nameSpace key task t :=
    ⟨e, storedAt, hStorable, rfl, by
      rw [hEntries, if_pos ⟨rfl, rfl⟩]⟩
  constructor
  · intro m other text hText
    rw [hEntries] at hText
    split at hText
    · rename_i hHere
      rcases hHere with ⟨hName, hKey⟩
      subst hName hKey
      exact ⟨task, hNew, by rw [hTasks, if_pos rfl]⟩
    · rename_i hElse
      rcases hPaired.entry m other text hText with
        ⟨named, hOther, hFound⟩
      have hNe : named ≠ task := by
        intro hEq
        rw [hEq, hFresh] at hFound
        cases hFound
      exact ⟨named, hOther.congr (by
          rw [hEntries, if_neg hElse]), by
        rw [hTasks, if_neg hNe, hFound]⟩
  · intro other text hText
    rw [hTasks] at hText
    split at hText
    · rename_i hHere
      rw [hHere]
      exact ⟨e.nameSpace, key, hNew⟩
    · rcases hPaired.task other text hText with
        ⟨m, found, hOther⟩
      have hNe : ¬ (m = e.nameSpace ∧ found = key) := by
        rintro ⟨hName, hKey⟩
        subst hName hKey
        rcases hOther with ⟨_, _, _, _, hThere⟩
        rw [hEmpty] at hThere
        cases hThere
      exact ⟨m, found, hOther.congr (by
        rw [hEntries, if_neg hNe])⟩

end Store.Paired

------------------------------------------------------------
-- The pairing as a map
------------------------------------------------------------

/- The entries of a store, by namespace and key. -/
def Pending.keys
    (s : Store) : Set (Namespace × String) :=
  { p | text? p.1 p.2 s ≠ none }

/- The keys of the tasks of a store. -/
def TaskQueue.keys
    (s : Store) : Set String :=
  { task | text? task s ≠ none }

theorem Store.Paired.bijOn
    {s : Store}
    (hPaired : s.Paired) :
    Set.BijOn (fun p => Pending.expiryTask? p.1 p.2 s)
      (Pending.keys s) (some '' TaskQueue.keys s) := by
  have hEntry :
      ∀ n key, (n, key) ∈ Pending.keys s →
        ∃ task,
          Pending.expiryTask? n key s = some task
            ∧ TaskQueue.text? task s
              = some (sweepText n key) := by
    intro n key hMem
    rcases Option.ne_none_iff_exists'.mp hMem with ⟨text, hText⟩
    rcases hPaired.entry n key text hText with
      ⟨task, hNames, hTask⟩
    exact ⟨task, hNames.expiryTask?_eq, hTask⟩
  refine ⟨?_, ?_, ?_⟩
  · rintro ⟨n, key⟩ hMem
    rcases hEntry n key hMem with ⟨task, hNamed, hTask⟩
    refine ⟨task, ?_, hNamed.symm⟩
    simp [TaskQueue.keys, hTask]
  · rintro ⟨n, key⟩ hMem ⟨o, other⟩ hOther hSame
    rcases hEntry n key hMem with ⟨task, hNamed, hTask⟩
    rcases hEntry o other hOther with ⟨found, hFound, hText⟩
    simp only [hNamed, hFound, Option.some.injEq] at hSame
    rw [hSame, hText] at hTask
    rcases sweepText_injective (Option.some.inj hTask) with
      ⟨hName, hKey⟩
    rw [hName, hKey]
  · rintro _ ⟨task, hMem, rfl⟩
    rcases Option.ne_none_iff_exists'.mp hMem with ⟨text, hText⟩
    rcases hPaired.task task text hText with ⟨n, key, hNames⟩
    refine ⟨(n, key), ?_, hNames.expiryTask?_eq⟩
    rcases hNames with ⟨e, storedAt, -, -, hRecord⟩
    simp [Pending.keys, hRecord]

end JourneyMatch

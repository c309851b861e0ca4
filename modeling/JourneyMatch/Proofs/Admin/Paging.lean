import Mathlib.Data.Set.Finite.Lattice
import JourneyMatch.Admin.Query
import JourneyMatch.Proofs.Sorted.Utf8
import JourneyMatch.Proofs.Store.Fired
import JourneyMatch.Proofs.Store.Listing

/-
  This file shows that the queue of tasks can be read page by
  page. Each page starts after the last key of the one before
  it, and the walk ends with the first empty page. Between
  two pages the queue may change at will, and the task whose
  key is the bound of the next page may be gone.

  The keys that are listed ascend over all pages, because a
  page lists only keys above its bound. A task that stays is
  not passed over, because a page lists everything up to its
  last key. The walk ends because its bound moves up through
  the keys that are ever in the queue, which are finitely
  many if finitely many are added.

  Key definitions include:
    * `Admin.tasks`
    * `Admin.IsPage`
    * `Admin.Walk`

  Main statements:
    * `Admin.isPage_of_listTasks`
    * `Admin.Walk.ascending`
    * `Admin.Walk.complete`
    * `Admin.exists_walk`
    * `Admin.walk_lists_once`
-/

namespace JourneyMatch

namespace Admin

------------------------------------------------------------
-- The queue as a list
------------------------------------------------------------

/- What a list shows of a task. -/
def taskEntry : String × StoredTask → TaskEntry
  | (key, task) => ⟨key, task.type, task.payload⟩

/- All tasks of a store, if every one of them decodes. -/
def tasks
    (s : Store) : Except StoreError (List TaskEntry) :=
  (decodeEntries StoredTask (TaskQueue.of s).entries).map
    (List.map taskEntry)

/- Whether a key lies above a bound, if there is one. -/
def beyond : Option String → String → Bool
  | none, _ => true
  | some bound, key => bound < key

theorem beyond_of_lt
    {after : Option String}
    {first second : String}
    (hFirst : beyond after first)
    (hLess : first < second) :
    beyond after second := by
  cases after with
  | none => rfl
  | some bound =>
      exact decide_eq_true
        (String.lt_trans (of_decide_eq_true hFirst) hLess)

/- Whether tasks stand in ascending order of their keys. -/
def Ascending
    (all : List TaskEntry) : Prop :=
  all.Pairwise fun t u => t.key < u.key

theorem ascending_tasks
    {s : Store}
    {all : List TaskEntry}
    (hTasks : tasks s = .ok all) :
    Ascending all := by
  rcases Except.exists_of_map_eq_ok hTasks with
    ⟨values, hRead, rfl⟩
  have hKeys :
      (values.map (·.1)).Pairwise (· < ·) := by
    rw [keys_of_decodeEntries hRead, List.pairwise_map]
    exact (TaskQueue.of s).ascending
  rw [Ascending, List.pairwise_map]
  exact List.pairwise_map.mp hKeys

theorem Ascending.nodup_keys
    {all : List TaskEntry}
    (hAsc : Ascending all) :
    (all.map TaskEntry.key).Nodup := by
  apply List.pairwise_map.mpr
  apply hAsc.imp
  intro t u hLess hSame
  rw [hSame] at hLess
  exact String.lt_irrefl _ hLess

/- Two lists in this order with the same tasks are the same. -/
theorem Ascending.eq_of_mem_iff
    {all others : List TaskEntry}
    (hAsc : Ascending all)
    (hOther : Ascending others)
    (hSame : ∀ t, t ∈ all ↔ t ∈ others) :
    all = others := by
  apply List.Perm.eq_of_pairwise _ hAsc hOther
  · exact
      (List.perm_ext_iff_of_nodup
        (List.Nodup.of_map _ hAsc.nodup_keys)
        (List.Nodup.of_map _ hOther.nodup_keys)).mpr hSame
  · intro t u _ _ hLess hMore
    exact absurd (String.lt_trans hLess hMore)
      (String.lt_irrefl _)

------------------------------------------------------------
-- One page
------------------------------------------------------------

/-
  Whether a list of tasks is a page of the queue: at most as
  many tasks as the limit allows, above the bound and in
  order, and every task of the queue that lies above the
  bound and not above the last task of the page. Only an
  empty page leaves nothing above the bound.
-/
structure IsPage
    (after : Option String)
    (limit : Nat)
    (all page : List TaskEntry) : Prop where
  short : page.length ≤ clampLimit limit
  ascending : Ascending page
  sound : ∀ t ∈ page, t ∈ all ∧ beyond after t.key
  last :
    page = [] → ∀ t ∈ all, ¬ beyond after t.key
  upTo :
    ∀ u ∈ page.getLast?, ∀ t ∈ all,
      beyond after t.key → t ∈ page ∨ u.key < t.key
  below :
    ∀ u ∈ page.getLast?, ∀ t ∈ page,
      t = u ∨ t.key < u.key

/- The first tasks above a bound are a page. -/
theorem isPage_take
    {all : List TaskEntry}
    (hAsc : Ascending all)
    (after : Option String)
    (limit : Nat) :
    IsPage after limit all
      ((all.filter fun t => beyond after t.key).take
        (clampLimit limit)) := by
  let above := all.filter fun t => beyond after t.key
  have hAbove : Ascending above := hAsc.filter _
  have hSplit := hAbove
  rw [← List.take_append_drop (clampLimit limit) above,
    Ascending, List.pairwise_append] at hSplit
  rcases hSplit with ⟨hPage, -, hApart⟩
  constructor
  · exact List.length_take_le _ _
  · exact hPage
  · intro t hMem
    exact List.mem_filter.mp (List.mem_of_mem_take hMem)
  · intro hNone t hMem hBeyond
    rcases List.take_eq_nil_iff.mp hNone with hZero | hEmpty
    · exact absurd hZero (clampLimit_pos limit).ne'
    · exact List.filter_eq_nil_iff.mp hEmpty t hMem hBeyond
  · intro u hLast t hMem hBeyond
    have hThere : t ∈ above :=
      List.mem_filter.mpr ⟨hMem, hBeyond⟩
    rw [← List.take_append_drop (clampLimit limit) above]
      at hThere
    rcases List.mem_append.mp hThere with hIn | hLater
    · exact .inl hIn
    · exact .inr
        (hApart u (List.mem_of_mem_getLast? hLast) t hLater)
  · intro u hLast t hMem
    rcases List.getLast?_eq_some_iff.mp hLast with
      ⟨earlier, hConcat⟩
    rw [hConcat] at hMem hPage
    rcases List.mem_append.mp hMem with hEarlier | hSame
    · exact .inr
        ((List.pairwise_append.mp hPage).2.2 t hEarlier u
          (List.mem_singleton.mpr rfl))
    · exact .inl (List.mem_singleton.mp hSame)

/- What a list is, for a queue whose tasks decode. -/
theorem listTasks_eq
    {s : Store}
    {all : List TaskEntry}
    (hTasks : tasks s = .ok all)
    (after : Option String)
    (limit : Nat) :
    listTasks after limit s
      = .ok
        ((all.filter fun t => beyond after t.key).take
          (clampLimit limit)) := by
  have hAfter :
      (TaskQueue.of s).after after
        = (TaskQueue.of s).entries.filter
          fun entry => beyond after entry.1 := by
    cases after with
    | none => exact (List.filter_eq_self.mpr fun _ _ => rfl).symm
    | some bound => rfl
  rcases Except.exists_of_map_eq_ok hTasks with
    ⟨values, hRead, rfl⟩
  rw [listTasks, hAfter,
    decodeEntries_take
      (decodeEntries_filter hRead (beyond after)),
    List.filter_map, ← List.map_take]
  rfl

theorem isPage_of_listTasks
    {s : Store}
    {after : Option String}
    {limit : Nat}
    {all page : List TaskEntry}
    (hTasks : tasks s = .ok all)
    (hList : listTasks after limit s = .ok page) :
    IsPage after limit all page := by
  rw [listTasks_eq hTasks, Except.ok.injEq] at hList
  rw [← hList]
  exact isPage_take (ascending_tasks hTasks) after limit

------------------------------------------------------------
-- Walks
------------------------------------------------------------

/-
  The pages that are read one after the other, each from the
  store as it is then, until one is empty. The last key of a
  page is the bound of the next.
-/
inductive Walk
    (limit : Nat) :
    Option String → (Nat → Store) →
      List (List TaskEntry) → Prop where
  | done
      {after : Option String}
      {stores : Nat → Store}
      (hList : listTasks after limit (stores 0) = .ok []) :
      Walk limit after stores []
  | page
      {after : Option String}
      {stores : Nat → Store}
      {page : List TaskEntry}
      {last : TaskEntry}
      {pages : List (List TaskEntry)}
      (hList : listTasks after limit (stores 0) = .ok page)
      (hLast : page.getLast? = some last)
      (hRest :
        Walk limit (some last.key) (fun n => stores (n + 1))
          pages) :
      Walk limit after stores (page :: pages)

variable
  {limit : Nat}
  {after : Option String}
  {stores : Nat → Store}
  {queue : Nat → List TaskEntry}
  {pages : List (List TaskEntry)}

/- A walk has no choice. -/
theorem Walk.unique
    {others : List (List TaskEntry)}
    (hWalk : Walk limit after stores pages)
    (hOther : Walk limit after stores others) :
    others = pages := by
  induction hWalk generalizing others with
  | done hList =>
      cases hOther with
      | done _ => rfl
      | page hPage hLast _ =>
          rw [hList] at hPage
          cases hPage
          exact nomatch hLast
  | page hList hLast _ ih =>
      cases hOther with
      | done hNone =>
          rw [hList] at hNone
          cases hNone
          exact nomatch hLast
      | page hPage hEnd hRest =>
          rw [hList] at hPage
          cases hPage
          rw [hLast] at hEnd
          cases hEnd
          rw [ih hRest]

/- Every page is as short as the limit asks. -/
theorem Walk.short
    (hTasks : ∀ n, tasks (stores n) = .ok (queue n))
    (hWalk : Walk limit after stores pages) :
    ∀ page ∈ pages, page.length ≤ clampLimit limit := by
  induction hWalk generalizing queue with
  | done _ => exact fun page hMem => nomatch hMem
  | page hList _ _ ih =>
      intro other hMem
      rcases List.mem_cons.mp hMem with hSame | hLater
      · rw [hSame]
        exact (isPage_of_listTasks (hTasks 0) hList).short
      · exact ih (fun n => hTasks (n + 1)) other hLater

/- A page lists tasks that are in the queue at its time. -/
theorem Walk.sound
    (hTasks : ∀ n, tasks (stores n) = .ok (queue n))
    (hWalk : Walk limit after stores pages) :
    ∀ n, ∀ page ∈ pages[n]?, ∀ t ∈ page, t ∈ queue n := by
  induction hWalk generalizing queue with
  | done _ => exact fun n page hMem => nomatch hMem
  | page hList _ _ ih =>
      intro n other hOther t hMem
      cases n with
      | zero =>
          cases hOther
          exact
            ((isPage_of_listTasks (hTasks 0) hList).sound t
              hMem).1
      | succ n =>
          exact ih (fun n => hTasks (n + 1)) n other hOther t hMem

/- All that is listed lies above the first bound. -/
theorem Walk.beyond
    (hTasks : ∀ n, tasks (stores n) = .ok (queue n))
    (hWalk : Walk limit after stores pages) :
    ∀ t ∈ pages.flatten, Admin.beyond after t.key := by
  induction hWalk generalizing queue with
  | done _ => exact fun t hMem => nomatch hMem
  | page hList hLast _ ih =>
      have hPage := isPage_of_listTasks (hTasks 0) hList
      intro t hMem
      rcases List.mem_append.mp hMem with hIn | hLater
      · exact (hPage.sound t hIn).2
      · have hAbove := ih (fun n => hTasks (n + 1)) t hLater
        have hEnd :=
          hPage.sound _ (List.mem_of_mem_getLast? hLast)
        exact beyond_of_lt hEnd.2 (of_decide_eq_true hAbove)

/- The keys ascend within the pages and from one to the next. -/
theorem Walk.ascending
    (hTasks : ∀ n, tasks (stores n) = .ok (queue n))
    (hWalk : Walk limit after stores pages) :
    Ascending pages.flatten := by
  induction hWalk generalizing queue with
  | done _ => exact .nil
  | page hList hLast hRest ih =>
      have hPage := isPage_of_listTasks (hTasks 0) hList
      apply List.pairwise_append.mpr
      refine
        ⟨hPage.ascending, ih fun n => hTasks (n + 1), ?_⟩
      intro t hIn u hLater
      have hAbove :=
        of_decide_eq_true
          (hRest.beyond (fun n => hTasks (n + 1)) u hLater)
      rcases hPage.below _ hLast t hIn with hSame | hBelow
      · rw [hSame]
        exact hAbove
      · exact String.lt_trans hBelow hAbove

/- A key that is there throughout is listed. -/
theorem Walk.complete
    {key : String}
    (hTasks : ∀ n, tasks (stores n) = .ok (queue n))
    (hWalk : Walk limit after stores pages)
    (hBeyond : Admin.beyond after key)
    (hThere :
      ∀ n ≤ pages.length, key ∈ (queue n).map TaskEntry.key) :
    key ∈ pages.flatten.map TaskEntry.key := by
  induction hWalk generalizing queue with
  | done hList =>
      have hPage := isPage_of_listTasks (hTasks 0) hList
      rcases List.mem_map.mp (hThere 0 (Nat.zero_le _)) with
        ⟨t, hMem, rfl⟩
      exact absurd hBeyond (hPage.last rfl t hMem)
  | page hList hLast _ ih =>
      have hPage := isPage_of_listTasks (hTasks 0) hList
      rcases List.mem_map.mp (hThere 0 (Nat.zero_le _)) with
        ⟨t, hMem, rfl⟩
      rw [List.flatten_cons, List.map_append, List.mem_append]
      rcases hPage.upTo _ hLast t hMem hBeyond with
        hIn | hAbove
      · exact .inl (List.mem_map_of_mem hIn)
      · refine
          .inr
            (ih (fun n => hTasks (n + 1))
              (decide_eq_true hAbove) ?_)
        intro n hLe
        exact hThere (n + 1) (Nat.succ_le_succ hLe)

/- The pages of a queue that stays as it is are the queue. -/
theorem Walk.flatten_eq
    (hTasks : ∀ n, tasks (stores n) = .ok (queue n))
    (hWalk : Walk limit none stores pages)
    (hStays : ∀ n ≤ pages.length, queue n = queue 0) :
    pages.flatten = queue 0 := by
  have hQueue := ascending_tasks (hTasks 0)
  have hSound : ∀ t ∈ pages.flatten, t ∈ queue 0 := by
    intro t hMem
    rcases List.mem_flatten.mp hMem with ⟨page, hPage, hIn⟩
    rcases List.mem_iff_getElem?.mp hPage with ⟨n, hNth⟩
    have hLess : n < pages.length :=
      (List.getElem?_eq_some_iff.mp hNth).1
    rw [← hStays n hLess.le]
    exact hWalk.sound hTasks n page hNth t hIn
  apply (hWalk.ascending hTasks).eq_of_mem_iff hQueue
  intro t
  refine ⟨hSound t, fun hMem => ?_⟩
  have hListed : t.key ∈ pages.flatten.map TaskEntry.key := by
    apply hWalk.complete hTasks rfl
    intro n hLe
    rw [hStays n hLe]
    exact List.mem_map_of_mem hMem
  rcases List.mem_map.mp hListed with ⟨u, hThere, hKey⟩
  have hSame : u = t :=
    List.inj_on_of_nodup_map hQueue.nodup_keys
      (hSound u hThere) hMem hKey
  rw [← hSame]
  exact hThere

------------------------------------------------------------
-- Walks end
------------------------------------------------------------

/-
  A walk ends if the keys above its bound are finitely many:
  the bound moves on to one of them with every page.
-/
theorem exists_walk
    (limit : Nat)
    (keys : Finset String)
    (hTasks : ∀ n, tasks (stores n) = .ok (queue n))
    (hKeys :
      ∀ n, ∀ t ∈ queue n,
        Admin.beyond after t.key → t.key ∈ keys) :
    ∃ pages, Walk limit after stores pages := by
  induction keys using Finset.strongInduction
    generalizing after stores queue with
  | H keys ih =>
      have hList := listTasks_eq (hTasks 0) after limit
      have hPage := isPage_of_listTasks (hTasks 0) hList
      cases hLast :
          ((queue 0).filter fun t =>
            Admin.beyond after t.key).take
              (clampLimit limit) |>.getLast? with
      | none =>
          rw [List.getLast?_eq_none_iff.mp hLast] at hList
          exact ⟨[], .done hList⟩
      | some last =>
          have hEnd :=
            hPage.sound last (List.mem_of_mem_getLast? hLast)
          have hLess : keys.erase last.key ⊂ keys :=
            Finset.erase_ssubset
              (hKeys 0 last hEnd.1 hEnd.2)
          have hRest :
              ∀ n, ∀ t ∈ queue (n + 1),
                Admin.beyond (some last.key) t.key →
                  t.key ∈ keys.erase last.key := by
            intro n t hMem hAbove
            have hMore : last.key < t.key :=
              of_decide_eq_true hAbove
            refine Finset.mem_erase.mpr ⟨?_, ?_⟩
            · intro hSame
              rw [hSame] at hMore
              exact String.lt_irrefl _ hMore
            · exact hKeys (n + 1) t hMem
                (beyond_of_lt hEnd.2 hMore)
          rcases
              ih _ hLess (fun n => hTasks (n + 1)) hRest with
            ⟨pages, hWalk⟩
          exact ⟨_ :: pages, .page hList hLast hWalk⟩

/- The keys that are added at any time. -/
def added
    (queue : Nat → List TaskEntry) : Set String :=
  {key |
    ∃ n,
      key ∉ (queue n).map TaskEntry.key
        ∧ key ∈ (queue (n + 1)).map TaskEntry.key}

/- A key that is ever there was there first or was added. -/
theorem mem_first_or_added
    {key : String}
    {n : Nat}
    (hThere : key ∈ (queue n).map TaskEntry.key) :
    key ∈ (queue 0).map TaskEntry.key ∨ key ∈ added queue := by
  induction n with
  | zero => exact .inl hThere
  | succ n ih =>
      by_cases hBefore : key ∈ (queue n).map TaskEntry.key
      · exact ih hBefore
      · exact .inr ⟨n, hBefore, hThere⟩

/-
  A queue of tasks that decode is read page by page while it
  changes, where only finitely many keys are ever added.
  There is one walk, and it ends. Its pages are as short as
  the limit asks, and each lists tasks that are in the queue
  when it is read. The keys ascend in the order of their
  bytes over all pages, so that none is listed twice. A key
  that is in the queue from the first page to the last one is
  listed exactly once. If the queue stays as it is, the pages
  together are the queue.
-/
theorem walk_lists_once
    (limit : Nat)
    (hTasks : ∀ n, tasks (stores n) = .ok (queue n))
    (hAdded : (added queue).Finite) :
    ∃ pages,
      Walk limit none stores pages
        ∧ (∀ others,
          Walk limit none stores others → others = pages)
        ∧ (∀ page ∈ pages, page.length ≤ clampLimit limit)
        ∧ (∀ n, ∀ page ∈ pages[n]?, ∀ t ∈ page, t ∈ queue n)
        ∧ (pages.flatten.map TaskEntry.key).Pairwise
          (fun first second => utf8 first < utf8 second)
        ∧ (∀ key,
          (∀ n ≤ pages.length,
              key ∈ (queue n).map TaskEntry.key) →
            (pages.flatten.map TaskEntry.key).count key = 1)
        ∧ ((∀ n ≤ pages.length, queue n = queue 0) →
          pages.flatten = queue 0) := by
  let keys : Finset String :=
    ((queue 0).map TaskEntry.key).toFinset ∪ hAdded.toFinset
  have hKeys :
      ∀ n, ∀ t ∈ queue n,
        Admin.beyond none t.key → t.key ∈ keys := by
    intro n t hMem _
    rcases mem_first_or_added (List.mem_map_of_mem hMem) with
      hFirst | hLater
    · exact Finset.mem_union_left _ (List.mem_toFinset.mpr hFirst)
    · exact Finset.mem_union_right _
        (hAdded.mem_toFinset.mpr hLater)
  rcases exists_walk limit keys hTasks hKeys with
    ⟨pages, hWalk⟩
  have hAsc := hWalk.ascending hTasks
  have hOnce :
      ∀ key,
        (∀ n ≤ pages.length,
            key ∈ (queue n).map TaskEntry.key) →
          (pages.flatten.map TaskEntry.key).count key = 1 :=
    fun key hThere =>
      List.count_eq_one_of_mem hAsc.nodup_keys
        (hWalk.complete hTasks rfl hThere)
  refine
    ⟨pages, hWalk, fun others => hWalk.unique,
      hWalk.short hTasks, hWalk.sound hTasks, ?_, hOnce, ?_⟩
  · apply List.pairwise_map.mpr
    apply hAsc.imp
    intro t u hLess
    exact utf8_lt_iff.mpr hLess
  · exact hWalk.flatten_eq hTasks

/-
  Between the first page and the second one the first task is
  deleted, whose key is the bound, and a third one is added.
-/
def seenFirst : Store :=
  TaskQueue.schedule
    [sweepTask .relayed "key" "a", sweepTask .relayed "key" "b"]
    .empty

def seenQueue : Nat → Store
  | 0 => seenFirst
  | _ + 1 =>
      TaskQueue.schedule [sweepTask .relayed "key" "c"]
        (deleteTask "a" seenFirst).2

def seenKeys : Nat → List String
  | 0 => ["a", "b"]
  | _ + 1 => ["b", "c"]

def seenTasks
    (n : Nat) : List TaskEntry :=
  (seenKeys n).map fun key =>
    taskEntry (key, (sweepTask .relayed "key" key).stored)

theorem tasks_seenQueue
    (n : Nat) :
    tasks (seenQueue n) = .ok (seenTasks n) := by
  have hEntries :
      (TaskQueue.of (seenQueue n)).entries
        = (seenKeys n).map
          fun key => (key, sweepText .relayed "key") := by
    cases n <;> rfl
  have hRead :
      decodeEntries StoredTask (TaskQueue.of (seenQueue n)).entries
        = .ok
          ((seenKeys n).map fun key =>
            (key, (sweepTask .relayed "key" key).stored)) := by
    rw [hEntries, decodeEntries_eq_ok_iff,
      List.forall₂_map_left_iff, List.forall₂_map_right_iff,
      List.forall₂_same]
    intro key _
    exact ⟨rfl, decodeStored_sweepText .relayed "key"⟩
  rw [tasks, hRead, seenTasks, Except.map, List.map_map]
  rfl

theorem walk_lists_once_seenQueue :
    (∀ n, tasks (seenQueue n) = .ok (seenTasks n))
      ∧ (added seenTasks).Finite
      ∧ ∃ pages,
        Walk 0 none seenQueue pages
          ∧ (∀ page ∈ pages, page.length ≤ 1)
          ∧ (pages.flatten.map TaskEntry.key).count "b" = 1 := by
  have hAdded : (added seenTasks).Finite := by
    apply (List.finite_toSet (seenKeys 1)).subset
    rintro key ⟨n, -, hIn⟩
    exact hIn
  rcases walk_lists_once 0 tasks_seenQueue hAdded with
    ⟨pages, hWalk, -, hShort, -, -, hOnce, -⟩
  refine
    ⟨tasks_seenQueue, hAdded, pages, hWalk, hShort, ?_⟩
  apply hOnce
  rintro (_ | n) _
  · exact List.mem_of_getElem? (i := 1) rfl
  · exact List.mem_of_getElem? (i := 0) rfl

end Admin

end JourneyMatch

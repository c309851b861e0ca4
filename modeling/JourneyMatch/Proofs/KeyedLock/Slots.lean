import Mathlib.Data.List.Induction
import JourneyMatch.Proofs.KeyedLock.Fairness

/-
  This file says which keys have a slot. A key that somebody
  asks for always has one. The last to let go of a key takes
  its slot away if it held the lock, and leaves it behind if
  it gave up its wait, be it for a lock that had been handed
  over to it already. A slot that was left behind stays until
  somebody asks for its key again.

  Key definitions include:
    * `LockRequest.Alone`
    * `LockStep.GivesUp`
    * `KeyedLock.LeftBehind`

  Main statements:
    * `KeyedLock.Tracks.find?_drop_ne_none_iff`
    * `KeyedLock.Tracks.slots_apply`
    * `KeyedLock.slots_used_or_left`
    * `KeyedLock.seenGivenUp_left`
-/

namespace JourneyMatch

------------------------------------------------------------
-- Who asks alone
------------------------------------------------------------

/- Whether anybody asks for a key. -/
def LockRequest.Asked
    (key : String)
    (alive : List LockRequest) : Prop :=
  ∃ r ∈ alive, r.key = key

/- Whether a handle asks for a key, and nobody else does. -/
structure LockRequest.Alone
    (handle key : String)
    (alive : List LockRequest) : Prop where
  asks : ⟨handle, key⟩ ∈ alive
  others : ∀ r ∈ alive, r.key = key → r.handle = handle

/- Who asks alone for a key leaves nobody who asks for it. -/
theorem LockRequest.Alone.not_asked
    {handle key : String}
    {alive : List LockRequest}
    (hAlone : Alone handle key alive) :
    ¬ Asked key ((LockStep.drop handle).record alive) := by
  rintro ⟨r, hLeft, hKey⟩
  rcases List.mem_filter.mp hLeft with ⟨hMem, hHandle⟩
  exact of_decide_eq_true hHandle (hAlone.others r hMem hKey)

/-
  When a handle lets go, a key is still asked for as before,
  unless it was the only one to ask.
-/
theorem LockRequest.asked_record_drop_iff
    {handle key : String}
    {alive : List LockRequest} :
    Asked key ((LockStep.drop handle).record alive)
      ↔ Asked key alive ∧ ¬ Alone handle key alive := by
  constructor
  · rintro hLeft
    refine ⟨?_, fun hAlone => hAlone.not_asked hLeft⟩
    rcases hLeft with ⟨r, hMem, hKey⟩
    exact ⟨r, List.mem_of_mem_filter hMem, hKey⟩
  · rintro ⟨⟨r, hMem, hKey⟩, hNotAlone⟩
    by_contra hNobody
    have hOthers :
        ∀ s ∈ alive, s.key = key → s.handle = handle := by
      intro s hThere hSame
      by_contra hOther
      exact hNobody
        ⟨s, List.mem_filter.mpr
          ⟨hThere, decide_eq_true hOther⟩, hSame⟩
    refine hNotAlone ⟨?_, hOthers⟩
    rw [← hOthers r hMem hKey, ← hKey]
    exact hMem

/- Only a request makes a key one that is asked for. -/
theorem LockRequest.not_asked_record
    {alive : List LockRequest}
    {next : LockStep}
    {key : String}
    (hNobody : ¬ Asked key alive)
    (hNext : ∀ handle, next ≠ .lock handle key) :
    ¬ Asked key (next.record alive) := by
  cases next with
  | lock handle other =>
      rintro ⟨r, hMem, hKey⟩
      rcases List.mem_append.mp hMem with hOld | hNew
      · exact hNobody ⟨r, hOld, hKey⟩
      · cases List.mem_singleton.mp hNew
        cases hKey
        exact hNext handle rfl
  | poll handle => exact hNobody
  | drop handle =>
      intro hLeft
      exact hNobody (asked_record_drop_iff.mp hLeft).1

/-
  Whether a step gives up the wait of the only handle that
  asks for a key.
-/
def LockStep.GivesUp
    (key : String)
    (alive : List LockRequest)
    (l : KeyedLock) : LockStep → Prop
  | .lock _ _ => False
  | .poll _ => False
  | .drop handle =>
      LockRequest.Alone handle key alive
        ∧ l.standing handle = .waiting

/- Who gives up leaves nobody who asks for its key. -/
theorem LockStep.GivesUp.not_asked
    {alive : List LockRequest}
    {l : KeyedLock}
    {next : LockStep}
    {key : String}
    (hGives : next.GivesUp key alive l) :
    ¬ LockRequest.Asked key (next.record alive) := by
  cases next with
  | lock handle other => exact hGives.elim
  | poll handle => exact hGives.elim
  | drop handle => exact hGives.1.not_asked

namespace KeyedLock

open LockRequest

------------------------------------------------------------
-- Slots after a step
------------------------------------------------------------

/- The table is the same when a lock is looked at again. -/
theorem slots_poll
    (handle : String)
    (l : KeyedLock) :
    (l.poll handle).slots = l.slots := by
  rcases poll_cases handle l with
    hSame | ⟨c, -, -, hPoll⟩
  · rw [hSame]
  · rw [hPoll]

/- Who asks for a key gives it a slot, and no other key. -/
theorem find?_lock_ne_none_iff
    {handle key other : String}
    {l : KeyedLock} :
    (l.lock handle key).slots.find? other ≠ none
      ↔ other = key ∨ l.slots.find? other ≠ none := by
  have hSlots :
      (l.lock handle key).slots = (l.slotFor key).2.slots := by
    rw [lock_eq_poll_asked, slots_poll]
    rfl
  rw [hSlots, Option.ne_none_iff_exists',
    Option.ne_none_iff_exists']
  constructor
  · rintro ⟨slot, hSlot⟩
    rcases find?_slotFor_cases hSlot with
      ⟨hOld, -⟩ | ⟨hKey, -⟩
    · exact .inr ⟨slot, hOld⟩
    · exact .inl hKey
  · rintro (hKey | ⟨slot, hOld⟩)
    · rw [hKey]
      exact ⟨_, find?_slotFor key l⟩
    · exact ⟨slot, find?_slotFor_of_some hOld⟩

/-
  A slot has no other reference than the table's and the one
  that is counted last if no other claim is to its key.
-/
theorem Sound.references_erase_iff
    {l : KeyedLock}
    {c : Claim}
    (hSound : l.Sound)
    (hMem : c ∈ l.claims) :
    references c.key c.slot
          { l with claims := l.claims.erase c } + 1
        = 2
      ↔ ∀ d ∈ l.claims, d.key = c.key → d = c := by
  have hNodup : l.claims.Nodup :=
    List.Nodup.of_map Claim.handle hSound.handles
  have hCount :
      references c.key c.slot
            { l with claims := l.claims.erase c } + 1
          = 2
        ↔ (l.claims.erase c).countP (·.slot = c.slot) = 0 := by
    simp only [references, hSound.placed c hMem, if_true]
    omega
  rw [hCount, List.countP_eq_zero]
  constructor
  · intro hNone d hIn hKey
    by_contra hOther
    exact hNone d (hNodup.mem_erase_iff.mpr ⟨hOther, hIn⟩)
      (decide_eq_true (hSound.slot_eq hIn hMem hKey))
  · intro hAlone d hLeft hSlot
    rcases hNodup.mem_erase_iff.mp hLeft with ⟨hOther, hIn⟩
    have hPlaced := hSound.placed d hIn
    rw [of_decide_eq_true hSlot] at hPlaced
    exact hOther
      (hAlone d hIn
        (hSound.apart _ _ _ hPlaced (hSound.placed c hMem)))

/- A claim is the only one to its key if its handle asks alone. -/
theorem Tracks.alone_iff
    {alive : List LockRequest}
    {l : KeyedLock}
    {c : Claim}
    (hTracks : Tracks alive l)
    (hMem : c ∈ l.claims) :
    (∀ d ∈ l.claims, d.key = c.key → d = c)
      ↔ Alone c.handle c.key alive := by
  rw [← hTracks.requests]
  constructor
  · intro hOnly
    refine ⟨List.mem_map.mpr ⟨c, hMem, rfl⟩, ?_⟩
    intro r hAsks hKey
    rcases List.mem_map.mp hAsks with ⟨d, hIn, rfl⟩
    exact congrArg Claim.handle (hOnly d hIn hKey)
  · intro hAlone d hIn hKey
    exact hTracks.sound.eq_of_handle hIn hMem
      (hAlone.others d.request (List.mem_map_of_mem hIn) hKey)

/-
  Only the slot of a key is taken away for which nobody asked
  but a handle that held the lock.
-/
theorem Tracks.find?_drop_ne_none_iff
    {alive : List LockRequest}
    {l : KeyedLock}
    {handle key : String}
    (hTracks : Tracks alive l) :
    (l.drop handle).slots.find? key ≠ none
      ↔ l.slots.find? key ≠ none
        ∧ ¬ (Alone handle key alive
          ∧ l.standing handle = .held) := by
  have hSound := hTracks.sound
  cases hClaim : l.claim? handle with
  | none =>
      have hAbsent : l.standing handle ≠ .held := by
        simp [standing, hClaim]
      simp [KeyedLock.drop, hClaim, hAbsent]
  | some c =>
      rcases hSound.claim?_eq_some_iff.mp hClaim with
        ⟨hMem, hHandle⟩
      have hStanding :
          l.standing handle = .held ↔ c.held = true := by
        simp [standing, hClaim]
      -- A handle asks for one key only.
      have hKey : Alone handle key alive → key = c.key := by
        intro hAlone
        have hAsks := hAlone.asks
        rw [← hTracks.requests] at hAsks
        rcases List.mem_map.mp hAsks with ⟨d, hIn, hRequest⟩
        cases hRequest
        exact congrArg Claim.key
          (hSound.eq_of_handle hIn hMem hHandle.symm)
      have hLast :
          (c.held
              && decide
                (references c.key c.slot
                      { l with claims := l.claims.erase c }
                    + 1
                  = 2)) = true
            ↔ c.held = true ∧ Alone handle c.key alive := by
        rw [Bool.and_eq_true, decide_eq_true_eq,
          hSound.references_erase_iff hMem,
          hTracks.alone_iff hMem, hHandle]
      simp only [KeyedLock.drop, hClaim, hStanding]
      split
      · rename_i hTaken
        rcases hLast.mp hTaken with ⟨hHeld, hOnly⟩
        rw [SortedMap.find?_erase]
        by_cases hSame : c.key = key
        · subst hSame
          simp [hHeld, hOnly]
        · have hNot : ¬ Alone handle key alive :=
            fun hOther => hSame (hKey hOther).symm
          simp [hSame, hNot]
      · rename_i hKept
        refine (and_iff_left ?_).symm
        rintro ⟨hOnly, hHeld⟩
        rw [hKey hOnly] at hOnly
        exact hKept (hLast.mpr ⟨hHeld, hOnly⟩)

/- A handle that asks for a key holds its lock or waits. -/
theorem Tracks.standing_of_asks
    {alive : List LockRequest}
    {l : KeyedLock}
    {handle key : String}
    (hTracks : Tracks alive l)
    (hAsks : ⟨handle, key⟩ ∈ alive) :
    l.standing handle = .held ∨ l.standing handle = .waiting := by
  have hThere : l.standing handle ≠ .absent :=
    hTracks.standing_ne_absent_iff.mpr ⟨_, hAsks, rfl⟩
  cases hStanding : l.standing handle with
  | held => exact .inl rfl
  | waiting => exact .inr rfl
  | absent => exact absurd hStanding hThere

/-
  What a step makes of the slot of a key. Let the key have a
  slot just when somebody asks for it or it was left behind.
  Then this is so after the step, where a key is left behind
  that nobody but one who gives up asked for, and that was
  left behind before and is not asked for by the step.
-/
theorem Tracks.slots_apply
    {alive : List LockRequest}
    {l : KeyedLock}
    {next : LockStep}
    {key : String}
    {left : Prop}
    (hTracks : Tracks alive l)
    (hUsed :
      l.slots.find? key ≠ none ↔ Asked key alive ∨ left)
    (hLeft : left → ¬ Asked key alive) :
    (next.apply l).slots.find? key ≠ none
      ↔ Asked key (next.record alive)
        ∨ next.GivesUp key alive l
        ∨ left ∧ ∀ handle, next ≠ .lock handle key := by
  cases next with
  | lock handle other =>
      have hAsked :
          Asked key ((LockStep.lock handle other).record alive)
            ↔ Asked key alive ∨ other = key := by
        simp [Asked, LockStep.record, or_and_right,
          exists_or]
      have hNext :
          (∀ first,
              LockStep.lock handle other ≠ .lock first key)
            ↔ ¬ other = key := by
        simp
      rw [hAsked, hNext, LockStep.apply,
        find?_lock_ne_none_iff, hUsed, eq_comm]
      simp only [LockStep.GivesUp, false_or]
      tauto
  | poll handle =>
      simpa [LockStep.apply, slots_poll, LockStep.record,
        LockStep.GivesUp] using hUsed
  | drop handle =>
      have hAlone :
          Alone handle key alive →
            Asked key alive
              ∧ (l.standing handle = .waiting
                ↔ ¬ l.standing handle = .held) := by
        intro hOnly
        refine ⟨⟨_, hOnly.asks, rfl⟩, ?_⟩
        rcases hTracks.standing_of_asks hOnly.asks with
          hStanding | hStanding <;> simp [hStanding]
      rw [LockStep.apply, hTracks.find?_drop_ne_none_iff,
        hUsed, asked_record_drop_iff]
      simp only [LockStep.GivesUp, ne_eq, reduceCtorEq,
        not_false_eq_true, implies_true, and_true]
      tauto

------------------------------------------------------------
-- Slots after any steps
------------------------------------------------------------

@[simp] theorem run_concat
    {steps : List LockStep}
    {next : LockStep}
    {l : KeyedLock} :
    run (steps ++ [next]) l = next.apply (run steps l) := by
  induction steps generalizing l with
  | nil => rfl
  | cons first rest ih => exact ih

@[simp] theorem requests_concat
    {steps : List LockStep}
    {next : LockStep}
    {alive : List LockRequest} :
    requests (steps ++ [next]) alive
      = next.record (requests steps alive) := by
  induction steps generalizing alive with
  | nil => rfl
  | cons first rest ih => exact ih

theorem Fresh.of_concat
    {steps : List LockStep}
    {next : LockStep}
    {alive : List LockRequest}
    (hFresh : Fresh (steps ++ [next]) alive) :
    Fresh steps alive := by
  induction steps generalizing alive with
  | nil => trivial
  | cons first rest ih => exact ⟨hFresh.1, ih hFresh.2⟩

/-
  Whether a key was left behind: the last to ask for it gave
  up its wait, and nobody has asked for the key since.
-/
def LeftBehind
    (steps : List LockStep)
    (key : String) : Prop :=
  ∃ earlier next later,
    steps = earlier ++ next :: later
      ∧ next.GivesUp key (requests earlier [])
        (run earlier empty)
      ∧ ∀ handle, .lock handle key ∉ later

theorem not_leftBehind_nil
    (key : String) :
    ¬ LeftBehind [] key := by
  rintro ⟨earlier, next, later, hSteps, -⟩
  exact List.append_ne_nil_of_right_ne_nil _
    (List.cons_ne_nil next later) hSteps.symm

theorem leftBehind_concat_iff
    {steps : List LockStep}
    {next : LockStep}
    {key : String} :
    LeftBehind (steps ++ [next]) key
      ↔ next.GivesUp key (requests steps []) (run steps empty)
        ∨ LeftBehind steps key
          ∧ ∀ handle, next ≠ .lock handle key := by
  constructor
  · rintro ⟨earlier, given, later, hSteps, hGives, hLater⟩
    rcases List.eq_nil_or_concat' later with
      rfl | ⟨between, last, rfl⟩
    · rcases List.append_inj' hSteps rfl with ⟨rfl, hNext⟩
      cases hNext
      exact .inl hGives
    · rw [← List.cons_append, ← List.append_assoc] at hSteps
      rcases List.append_inj' hSteps rfl with ⟨rfl, hNext⟩
      cases hNext
      refine .inr ⟨⟨earlier, given, between, rfl, hGives, ?_⟩, ?_⟩
      · intro handle hIn
        exact hLater handle (List.mem_append_left _ hIn)
      · intro handle hLock
        exact hLater handle
          (List.mem_append_right _
            (List.mem_singleton.mpr hLock.symm))
  · rintro (hGives | ⟨hLeft, hNext⟩)
    · exact ⟨steps, next, [], rfl, hGives, by simp⟩
    · rcases hLeft with
        ⟨earlier, given, later, rfl, hGives, hLater⟩
      refine ⟨earlier, given, later ++ [next], ?_, hGives, ?_⟩
      · rw [List.append_assoc, List.cons_append]
      · intro handle hIn
        rcases List.mem_append.mp hIn with hOld | hLast
        · exact hLater handle hOld
        · exact hNext handle (List.mem_singleton.mp hLast).symm

/- Nobody asks for a key that was left behind. -/
theorem not_asked_of_leftBehind
    {steps : List LockStep}
    {key : String}
    (hLeft : LeftBehind steps key) :
    ¬ Asked key (requests steps []) := by
  induction steps using List.reverseRecOn with
  | nil => exact absurd hLeft (not_leftBehind_nil key)
  | append_singleton steps next ih =>
      rw [requests_concat]
      rcases leftBehind_concat_iff.mp hLeft with
        hGives | ⟨hBefore, hNext⟩
      · exact hGives.not_asked
      · exact not_asked_record (ih hBefore) hNext

/- A key has a slot while it is asked for or was left behind. -/
theorem find?_run_ne_none_iff
    {steps : List LockStep}
    {key : String}
    (hFresh : Fresh steps []) :
    (run steps empty).slots.find? key ≠ none
      ↔ Asked key (requests steps []) ∨ LeftBehind steps key := by
  induction steps using List.reverseRecOn with
  | nil =>
      simp [run, requests, empty, Asked, not_leftBehind_nil]
  | append_singleton steps next ih =>
      have hTracks := tracks_run tracks_empty hFresh.of_concat
      rw [run_concat, requests_concat, leftBehind_concat_iff]
      exact
        hTracks.slots_apply (ih hFresh.of_concat)
          not_asked_of_leftBehind

/-
  After any steps in which no handle makes a request while it
  has one: the keys with a slot are those that somebody asks
  for and those that were left behind, and no key is both. So
  the keys with a slot are just those in use if and only if
  no key was left behind, and when everybody has let go, no
  slot is there if and only if no key was left behind.
-/
theorem slots_used_or_left
    {steps : List LockStep}
    (hFresh : Fresh steps []) :
    let slots := (run steps empty).slots
    let alive := requests steps []
    (∀ key,
        key ∈ slots.keys
          ↔ Asked key alive ∨ LeftBehind steps key)
      ∧ (∀ key, LeftBehind steps key → ¬ Asked key alive)
      ∧ ((∀ key, key ∈ slots.keys ↔ Asked key alive)
        ↔ ∀ key, ¬ LeftBehind steps key)
      ∧ (alive = [] →
        (slots.keys = [] ↔ ∀ key, ¬ LeftBehind steps key)) := by
  intro slots alive
  have hKeys :
      ∀ key,
        key ∈ slots.keys
          ↔ Asked key alive ∨ LeftBehind steps key := by
    intro key
    rw [SortedMap.mem_keys_iff]
    exact find?_run_ne_none_iff hFresh
  have hApart :
      ∀ key, LeftBehind steps key → ¬ Asked key alive :=
    fun _ => not_asked_of_leftBehind
  refine ⟨hKeys, hApart, ?_, ?_⟩
  · constructor
    · intro hUsed key hLeft
      exact hApart key hLeft
        ((hUsed key).mp ((hKeys key).mpr (.inr hLeft)))
    · intro hNone key
      rw [hKeys key, or_iff_left (hNone key)]
  · intro hGone
    rw [List.eq_nil_iff_forall_not_mem]
    apply forall_congr'
    intro key
    have hNobody : ¬ Asked key alive := by
      rintro ⟨r, hMem, -⟩
      rw [hGone] at hMem
      exact List.not_mem_nil hMem
    rw [hKeys key, or_iff_right hNobody]

/-
  Two ask for a key. The first one gives the lock back, which
  hands it to the second, and the second gives up before it
  has looked.
-/
def seenGivenUp : List LockStep :=
  [.lock "first" "key", .lock "second" "key",
    .drop "first", .drop "second"]

theorem slots_used_or_left_seenGivenUp :
    Fresh seenGivenUp []
      ∧ requests seenGivenUp [] = []
      ∧ LeftBehind seenGivenUp "key"
      ∧ "key" ∈ (run seenGivenUp empty).slots.keys := by
  have hFresh : Fresh seenGivenUp [] := by decide
  have hLeft : LeftBehind seenGivenUp "key" := by
    refine
      ⟨seenGivenUp.take 3, .drop "second", [], rfl,
        ⟨⟨by decide, by decide⟩, by decide⟩, by simp⟩
  exact
    ⟨hFresh, by decide, hLeft,
      ((slots_used_or_left hFresh).1 "key").mpr (.inr hLeft)⟩

/-
  So the table does not hold only the keys in use: nobody is
  alive any more, and the key still has its slot.
-/
theorem seenGivenUp_left :
    Fresh seenGivenUp []
      ∧ requests seenGivenUp [] = []
      ∧ (run seenGivenUp empty).slots.keys = ["key"]
      ∧ ¬ ∀ key,
        key ∈ (run seenGivenUp empty).slots.keys
          ↔ Asked key (requests seenGivenUp []) := by
  have hKeys :
      (run seenGivenUp empty).slots.keys = ["key"] := by
    decide
  have hGone : requests seenGivenUp [] = [] := by decide
  refine ⟨by decide, hGone, hKeys, ?_⟩
  intro hUsed
  have hAsked : Asked "key" (requests seenGivenUp []) :=
    (hUsed "key").mp (by rw [hKeys]; decide)
  rw [hGone] at hAsked
  rcases hAsked with ⟨r, hMem, -⟩
  exact List.not_mem_nil hMem

end KeyedLock

end JourneyMatch

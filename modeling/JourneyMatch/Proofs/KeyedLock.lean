import Mathlib.Data.List.Nodup
import JourneyMatch.KeyedLock

/-
  This file says what keyed locks guarantee. As long as each
  handle makes one claim at a time, no two claims hold the
  lock of one key, and the owner of a slot can always take
  it, so that nobody waits for a lock that nobody has.

  Key definitions include:
    * `KeyedLock.Sound`
    * `KeyedLock.Idle`

  Main statements:
    * `KeyedLock.Sound.exclusive`
    * `KeyedLock.Sound.exists_owner`
    * `KeyedLock.Sound.poll`
    * `KeyedLock.Sound.lock`
    * `KeyedLock.Sound.drop`
-/

namespace JourneyMatch

/- What has a property of its own is found by it. -/
theorem find?_eq_some_iff_of_nodup
    {α β : Type}
    [DecidableEq β]
    {property : α → β}
    {xs : List α}
    (hNodup : (xs.map property).Nodup)
    {x : α}
    {wanted : β} :
    (xs.find? fun y => property y = wanted) = some x
      ↔ x ∈ xs ∧ property x = wanted := by
  constructor
  · intro hFound
    exact
      ⟨List.mem_of_find?_eq_some hFound,
        by simpa using List.find?_some hFound⟩
  · rintro ⟨hMem, hWanted⟩
    cases hFound :
        xs.find? fun y => property y = wanted with
    | none =>
        have hNone := List.find?_eq_none.mp hFound x hMem
        simp [hWanted] at hNone
    | some y =>
        have hSame : property y = wanted := by
          simpa using List.find?_some hFound
        rw [List.inj_on_of_nodup_map hNodup
          (List.mem_of_find?_eq_some hFound) hMem
          (hSame.trans hWanted.symm)]

namespace KeyedLock

------------------------------------------------------------
-- Sound locks
------------------------------------------------------------

/-
  Whether the claims fit the table: a handle makes one claim,
  each claim is to the slot that its key has, keys have slots
  of their own, which are not new, and who holds a slot is
  the first who claimed it.
-/
structure Sound
    (l : KeyedLock) : Prop where
  handles : (l.claims.map Claim.handle).Nodup
  placed :
    ∀ c ∈ l.claims, l.slots.find? c.key = some c.slot
  apart :
    ∀ key other slot,
      l.slots.find? key = some slot →
        l.slots.find? other = some slot →
          key = other
  used :
    ∀ key slot,
      l.slots.find? key = some slot → slot < l.fresh
  first :
    ∀ c ∈ l.claims,
      c.held = true → l.owner? c.slot = some c

/- Whether nobody claims anything. -/
structure Idle
    (l : KeyedLock) : Prop where
  sound : l.Sound
  claims : l.claims = []

/- The lock that nobody has asked for is idle. -/
theorem idle_empty :
    empty.Idle := by
  refine ⟨⟨?_, ?_, ?_, ?_, ?_⟩, rfl⟩
  · exact List.nodup_nil
  · nofun
  · nofun
  · nofun
  · nofun

namespace Sound

variable {l : KeyedLock}

/- Claims of one handle are the same. -/
theorem eq_of_handle
    (hSound : l.Sound)
    {c d : Claim}
    (hFirst : c ∈ l.claims)
    (hSecond : d ∈ l.claims)
    (hHandle : c.handle = d.handle) :
    c = d :=
  List.inj_on_of_nodup_map hSound.handles hFirst hSecond
    hHandle

/- A claim is found by its handle. -/
theorem claim?_eq_some_iff
    (hSound : l.Sound)
    {handle : String}
    {c : Claim} :
    l.claim? handle = some c ↔
      c ∈ l.claims ∧ c.handle = handle :=
  find?_eq_some_iff_of_nodup hSound.handles

/- A handle without a claim is that of none. -/
theorem claim?_eq_none_iff
    {handle : String} :
    l.claim? handle = none ↔
      ∀ c ∈ l.claims, c.handle ≠ handle := by
  simp [claim?, List.find?_eq_none]

/- Claims to one key are to one slot. -/
theorem slot_eq
    (hSound : l.Sound)
    {c d : Claim}
    (hFirst : c ∈ l.claims)
    (hSecond : d ∈ l.claims)
    (hKey : c.key = d.key) :
    c.slot = d.slot := by
  have hSlot := hSound.placed c hFirst
  rw [hKey, hSound.placed d hSecond] at hSlot
  exact (Option.some.inj hSlot).symm

/- No two claims hold the lock of one key. -/
theorem exclusive
    (hSound : l.Sound)
    {c d : Claim}
    (hFirst : c ∈ l.claims)
    (hSecond : d ∈ l.claims)
    (hHeld : c.held = true)
    (hOther : d.held = true)
    (hKey : c.key = d.key) :
    c = d := by
  have hOwner := hSound.first c hFirst hHeld
  rw [hSound.slot_eq hFirst hSecond hKey,
    hSound.first d hSecond hOther] at hOwner
  exact (Option.some.inj hOwner).symm

/- Every claim is to a slot that has an owner. -/
theorem exists_owner
    {c : Claim}
    (hMem : c ∈ l.claims) :
    ∃ o ∈ l.claims,
      l.owner? o.slot = some o ∧ o.slot = c.slot := by
  cases hOwner : l.owner? c.slot with
  | none =>
      unfold owner? at hOwner
      have hNone := List.find?_eq_none.mp hOwner c hMem
      simp at hNone
  | some o =>
      have hSlot : o.slot = c.slot := by
        unfold owner? at hOwner
        simpa using List.find?_some hOwner
      refine ⟨o, List.mem_of_find?_eq_some hOwner, ?_, hSlot⟩
      rw [hSlot]
      exact hOwner

end Sound

------------------------------------------------------------
-- Taking a lock
------------------------------------------------------------

/- A claim that is taken, and any other as it is. -/
def taken
    (c d : Claim) : Claim :=
  if d = c then { c with held := true } else d

@[simp] theorem handle_taken
    (c d : Claim) :
    (taken c d).handle = d.handle := by
  unfold taken
  split
  · rename_i hSame
    rw [hSame]
  · rfl

@[simp] theorem key_taken
    (c d : Claim) :
    (taken c d).key = d.key := by
  unfold taken
  split
  · rename_i hSame
    rw [hSame]
  · rfl

@[simp] theorem slot_taken
    (c d : Claim) :
    (taken c d).slot = d.slot := by
  unfold taken
  split
  · rename_i hSame
    rw [hSame]
  · rfl

/- Only the owner of a slot changes by being asked again. -/
theorem poll_cases
    (handle : String)
    (l : KeyedLock) :
    l.poll handle = l
      ∨ ∃ c,
        l.claim? handle = some c
          ∧ l.owner? c.slot = some c
          ∧ l.poll handle
            = { l with claims := l.claims.map (taken c) } := by
  cases hClaim : l.claim? handle with
  | none =>
      left
      simp only [KeyedLock.poll, hClaim]
  | some c =>
      by_cases hOwner : l.owner? c.slot = some c
      · right
        refine ⟨c, rfl, hOwner, ?_⟩
        simp only [KeyedLock.poll, hClaim, if_pos hOwner]
        rfl
      · left
        simp only [KeyedLock.poll, hClaim, if_neg hOwner]

/- The owner of a slot takes it. -/
theorem poll_of_owner
    {handle : String}
    {l : KeyedLock}
    {c : Claim}
    (hClaim : l.claim? handle = some c)
    (hOwner : l.owner? c.slot = some c) :
    l.poll handle
      = { l with claims := l.claims.map (taken c) } := by
  simp only [KeyedLock.poll, hClaim, if_pos hOwner]
  rfl

/- Claims are found where they were when one is taken. -/
theorem claim?_taken
    (c : Claim)
    (handle : String)
    (l : KeyedLock) :
    claim? handle { l with claims := l.claims.map (taken c) }
      = (l.claim? handle).map (taken c) := by
  simp only [claim?, List.find?_map, Function.comp_def,
    handle_taken]

theorem owner?_taken
    (c : Claim)
    (slot : Nat)
    (l : KeyedLock) :
    owner? slot { l with claims := l.claims.map (taken c) }
      = (l.owner? slot).map (taken c) := by
  simp only [owner?, List.find?_map, Function.comp_def,
    slot_taken]

theorem Sound.poll
    {l : KeyedLock}
    (hSound : l.Sound)
    (handle : String) :
    (l.poll handle).Sound := by
  rcases poll_cases handle l with
    hSame | ⟨c, hClaim, hOwner, hPoll⟩
  · rw [hSame]
    exact hSound
  · rw [hPoll]
    have hMem := (hSound.claim?_eq_some_iff.mp hClaim).1
    refine ⟨?_, ?_, hSound.apart, hSound.used, ?_⟩
    · have hHandles :
          (l.claims.map (taken c)).map Claim.handle
            = l.claims.map Claim.handle := by
        rw [List.map_map]
        exact List.map_congr_left fun d _ => handle_taken c d
      rw [hHandles]
      exact hSound.handles
    · intro d hTaken
      rcases List.mem_map.mp hTaken with ⟨e, hIn, hSame⟩
      subst hSame
      rw [key_taken, slot_taken]
      exact hSound.placed e hIn
    · intro d hTaken hHeld
      rcases List.mem_map.mp hTaken with ⟨e, hIn, hSame⟩
      subst hSame
      have hFirst : l.owner? e.slot = some e := by
        unfold taken at hHeld
        split at hHeld
        · rename_i hEq
          rw [hEq]
          exact hOwner
        · exact hSound.first e hIn hHeld
      rw [owner?_taken, slot_taken, hFirst]
      rfl

/- Asking again changes the claim of no other handle. -/
theorem claim?_poll_of_ne
    {handle other : String}
    {l : KeyedLock}
    (hSound : l.Sound)
    (hOther : other ≠ handle) :
    (l.poll handle).claim? other = l.claim? other := by
  rcases poll_cases handle l with
    hSame | ⟨c, hClaim, -, hPoll⟩
  · rw [hSame]
  · rw [hPoll, claim?_taken]
    cases hFound : l.claim? other with
    | none => rfl
    | some d =>
        have hNe : ¬ d = c := by
          intro hEq
          have hFirst := (hSound.claim?_eq_some_iff.mp hClaim).2
          have hSecond := (hSound.claim?_eq_some_iff.mp hFound).2
          exact hOther (by rw [← hSecond, hEq, hFirst])
        simp only [Option.map_some, taken, if_neg hNe]

/- Asking again keeps the key of a claim. -/
theorem claim?_poll_self
    {handle : String}
    {l : KeyedLock}
    {c : Claim}
    (hClaim : l.claim? handle = some c) :
    ∃ d,
      (l.poll handle).claim? handle = some d
        ∧ d.key = c.key := by
  rcases poll_cases handle l with
    hSame | ⟨o, hOwn, -, hPoll⟩
  · rw [hSame]
    exact ⟨c, hClaim, rfl⟩
  · rw [hClaim] at hOwn
    cases hOwn
    refine ⟨taken c c, ?_, key_taken c c⟩
    rw [hPoll, claim?_taken, hClaim]
    rfl

/- Nobody makes a claim by asking again. -/
theorem mem_claims_poll
    {handle : String}
    {l : KeyedLock}
    {d : Claim}
    (hMem : d ∈ (l.poll handle).claims) :
    ∃ c ∈ l.claims, c.handle = d.handle := by
  rcases poll_cases handle l with
    hSame | ⟨c, -, -, hPoll⟩
  · rw [hSame] at hMem
    exact ⟨d, hMem, rfl⟩
  · rw [hPoll] at hMem
    rcases List.mem_map.mp hMem with ⟨e, hIn, hTaken⟩
    exact ⟨e, hIn, by rw [← hTaken, handle_taken]⟩

------------------------------------------------------------
-- Asking for a lock
------------------------------------------------------------

/- The lock with one more claim, before it is tried. -/
def asked
    (handle key : String)
    (l : KeyedLock) : KeyedLock :=
  { (l.slotFor key).2 with
    claims :=
      l.claims ++ [⟨handle, key, (l.slotFor key).1, false⟩] }

theorem claims_slotFor
    (key : String)
    (l : KeyedLock) :
    (l.slotFor key).2.claims = l.claims := by
  unfold slotFor
  split <;> rfl

theorem lock_eq_poll_asked
    (handle key : String)
    (l : KeyedLock) :
    l.lock handle key = (l.asked handle key).poll handle := by
  unfold lock asked
  simp only [claims_slotFor]

/- The slot of a key stands in the table from then on. -/
theorem find?_slotFor
    (key : String)
    (l : KeyedLock) :
    (l.slotFor key).2.slots.find? key
      = some (l.slotFor key).1 := by
  unfold slotFor
  cases hSlot : l.slots.find? key with
  | some slot => exact hSlot
  | none => simp

/- Keys that had a slot keep it. -/
theorem find?_slotFor_of_some
    {key other : String}
    {slot : Nat}
    {l : KeyedLock}
    (hSlot : l.slots.find? other = some slot) :
    (l.slotFor key).2.slots.find? other = some slot := by
  unfold slotFor
  cases hKey : l.slots.find? key with
  | some found => exact hSlot
  | none =>
      have hNe : ¬ key = other := by
        intro hEq
        rw [hEq, hSlot] at hKey
        cases hKey
      simp [hNe, hSlot]

/- A slot in the table was there, or is the new one. -/
theorem find?_slotFor_cases
    {key other : String}
    {slot : Nat}
    {l : KeyedLock}
    (hSlot : (l.slotFor key).2.slots.find? other = some slot) :
    (l.slots.find? other = some slot
        ∧ l.fresh ≤ (l.slotFor key).2.fresh)
      ∨ (other = key
        ∧ slot = l.fresh
        ∧ (l.slotFor key).2.fresh = l.fresh + 1) := by
  unfold slotFor at hSlot ⊢
  cases hKey : l.slots.find? key with
  | some found =>
      rw [hKey] at hSlot
      exact .inl ⟨hSlot, Nat.le_refl _⟩
  | none =>
      rw [hKey] at hSlot
      simp only [SortedMap.find?_insert] at hSlot
      split at hSlot
      · rename_i hSame
        cases hSlot
        exact .inr ⟨hSame.symm, rfl, rfl⟩
      · exact .inl ⟨hSlot, Nat.le_succ _⟩

theorem Sound.asked
    {handle key : String}
    {l : KeyedLock}
    (hSound : l.Sound)
    (hFree : ∀ c ∈ l.claims, c.handle ≠ handle) :
    (l.asked handle key).Sound := by
  refine ⟨?_, ?_, ?_, ?_, ?_⟩
  · rw [KeyedLock.asked, List.map_append, List.nodup_append]
    refine ⟨hSound.handles, List.nodup_singleton _, ?_⟩
    intro a hOld b hNew hSame
    rcases List.mem_map.mp hOld with ⟨c, hMem, hHandle⟩
    rw [List.mem_singleton.mp hNew] at hSame
    exact hFree c hMem (hHandle.trans hSame)
  · intro c hMem
    rcases List.mem_append.mp hMem with hOld | hNew
    · exact find?_slotFor_of_some (hSound.placed c hOld)
    · rw [List.mem_singleton.mp hNew]
      exact find?_slotFor key l
  · intro first second slot hFirst hSecond
    rcases find?_slotFor_cases hFirst with
      ⟨hOld, -⟩ | ⟨hKey, hNew, -⟩
    · rcases find?_slotFor_cases hSecond with
        ⟨hOther, -⟩ | ⟨-, hFresh, -⟩
      · exact hSound.apart first second slot hOld hOther
      · have hUsed := hSound.used first slot hOld
        omega
    · rcases find?_slotFor_cases hSecond with
        ⟨hOther, -⟩ | ⟨hSame, -, -⟩
      · have hUsed := hSound.used second slot hOther
        omega
      · rw [hKey, hSame]
  · intro other slot hSlot
    rcases find?_slotFor_cases hSlot with
      ⟨hOld, hMore⟩ | ⟨-, hNew, hMore⟩
    · exact Nat.lt_of_lt_of_le (hSound.used other slot hOld)
        hMore
    · exact hNew ▸ hMore ▸ Nat.lt_succ_self _
  · intro c hMem hHeld
    rcases List.mem_append.mp hMem with hOld | hNew
    · have hFirst := hSound.first c hOld hHeld
      unfold owner? at hFirst ⊢
      rw [KeyedLock.asked, List.find?_append, hFirst]
      rfl
    · rw [List.mem_singleton.mp hNew] at hHeld
      cases hHeld

theorem Sound.lock
    {handle key : String}
    {l : KeyedLock}
    (hSound : l.Sound)
    (hFree : ∀ c ∈ l.claims, c.handle ≠ handle) :
    (l.lock handle key).Sound := by
  rw [lock_eq_poll_asked]
  exact (hSound.asked hFree).poll handle

/- Who asks for a lock has a claim to its key. -/
theorem claim?_lock_self
    {handle : String}
    {l : KeyedLock}
    (key : String)
    (hSound : l.Sound)
    (hFree : ∀ c ∈ l.claims, c.handle ≠ handle) :
    ∃ c,
      (l.lock handle key).claim? handle = some c
        ∧ c.key = key := by
  have hNew :
      (l.asked handle key).claim? handle
        = some ⟨handle, key, (l.slotFor key).1, false⟩ :=
    (hSound.asked hFree).claim?_eq_some_iff.mpr
      ⟨List.mem_append_right _ List.mem_cons_self, rfl⟩
  rcases claim?_poll_self hNew with ⟨d, hClaim, hKey⟩
  rw [lock_eq_poll_asked]
  exact ⟨d, hClaim, hKey⟩

theorem claim?_lock_of_ne
    {handle key other : String}
    {l : KeyedLock}
    (hSound : l.Sound)
    (hFree : ∀ c ∈ l.claims, c.handle ≠ handle)
    (hOther : other ≠ handle) :
    (l.lock handle key).claim? other = l.claim? other := by
  rw [lock_eq_poll_asked,
    claim?_poll_of_ne (hSound.asked hFree) hOther]
  unfold claim? asked
  rw [List.find?_append]
  have hNone :
      [Claim.mk handle key (l.slotFor key).1 false].find?
          (fun c => c.handle = other)
        = none := by
    simp [Ne.symm hOther]
  rw [hNone, Option.or_none]

theorem mem_claims_lock
    {handle key : String}
    {l : KeyedLock}
    {d : Claim}
    (hMem : d ∈ (l.lock handle key).claims) :
    d.handle = handle ∨ ∃ c ∈ l.claims, c.handle = d.handle := by
  rw [lock_eq_poll_asked] at hMem
  rcases mem_claims_poll hMem with ⟨c, hIn, hHandle⟩
  rcases List.mem_append.mp hIn with hOld | hNew
  · exact .inr ⟨c, hOld, hHandle⟩
  · rw [List.mem_singleton.mp hNew] at hHandle
    exact .inl hHandle.symm

------------------------------------------------------------
-- Releasing a lock
------------------------------------------------------------

/- Who is found first is found without another one as well. -/
theorem find?_erase_of_ne
    {p : Claim → Bool}
    {claims : List Claim}
    {c d : Claim}
    (hFound : claims.find? p = some d)
    (hOther : d ≠ c) :
    (claims.erase c).find? p = some d := by
  induction claims with
  | nil => cases hFound
  | cons head rest ih =>
      by_cases hHead : head = c
      · subst hHead
        rw [List.erase_cons_head]
        rw [List.find?_cons] at hFound
        split at hFound
        · cases hFound
          exact absurd rfl hOther
        · exact hFound
      · rw [List.erase_cons_tail (by simpa using hHead)]
        rw [List.find?_cons] at hFound ⊢
        split
        · rename_i hHere
          rw [hHere] at hFound
          exact hFound
        · rename_i hNot
          rw [hNot] at hFound
          exact ih hFound

theorem drop_claims
    {handle : String}
    {l : KeyedLock}
    {c : Claim}
    (hClaim : l.claim? handle = some c) :
    (l.drop handle).claims = l.claims.erase c := by
  simp only [KeyedLock.drop, hClaim]
  split <;> rfl

/- A slot is taken away from the table only by its last user. -/
theorem find?_drop_cases
    {handle : String}
    {l : KeyedLock}
    {c : Claim}
    (hSound : l.Sound)
    (hClaim : l.claim? handle = some c) :
    (l.drop handle).slots = l.slots
      ∨ ((l.drop handle).slots = l.slots.erase c.key
        ∧ ∀ d ∈ l.claims.erase c, d.slot ≠ c.slot) := by
  simp only [KeyedLock.drop, hClaim]
  split
  · rename_i hLast
    right
    refine ⟨rfl, ?_⟩
    intro d hMem hSlot
    have hPlaced :=
      hSound.placed c (hSound.claim?_eq_some_iff.mp hClaim).1
    have hCount :
        0 < (l.claims.erase c).countP (·.slot = c.slot) :=
      List.countP_pos_iff.mpr ⟨d, hMem, by simpa using hSlot⟩
    simp only [references, hPlaced, if_true, Bool.and_eq_true,
      decide_eq_true_eq] at hLast
    omega
  · exact .inl rfl

/- The table has no other slots than before. -/
theorem find?_of_find?_drop
    {handle key : String}
    {slot : Nat}
    {l : KeyedLock}
    {c : Claim}
    (hSound : l.Sound)
    (hClaim : l.claim? handle = some c)
    (hSlot : (l.drop handle).slots.find? key = some slot) :
    l.slots.find? key = some slot := by
  rcases find?_drop_cases hSound hClaim with
    hSame | ⟨hErased, -⟩
  · rw [← hSame]
    exact hSlot
  · rw [hErased, SortedMap.find?_erase] at hSlot
    split at hSlot
    · cases hSlot
    · exact hSlot

theorem Sound.drop
    {handle : String}
    {l : KeyedLock}
    (hSound : l.Sound) :
    (l.drop handle).Sound := by
  cases hClaim : l.claim? handle with
  | none =>
      have hSame : l.drop handle = l := by
        simp only [KeyedLock.drop, hClaim]
      rw [hSame]
      exact hSound
  | some c =>
      have hNodup : l.claims.Nodup :=
        List.Nodup.of_map Claim.handle hSound.handles
      have hFresh : (l.drop handle).fresh = l.fresh := by
        simp only [KeyedLock.drop, hClaim]
        split <;> rfl
      refine ⟨?_, ?_, ?_, ?_, ?_⟩
      · rw [drop_claims hClaim]
        exact hSound.handles.sublist
          ((List.erase_sublist).map Claim.handle)
      · rw [drop_claims hClaim]
        intro d hMem
        have hPlaced :=
          hSound.placed d (List.mem_of_mem_erase hMem)
        rcases find?_drop_cases hSound hClaim with
          hSame | ⟨hErased, hAlone⟩
        · rw [hSame]
          exact hPlaced
        · have hKey : ¬ c.key = d.key := by
            intro hEq
            exact hAlone d hMem
              (hSound.slot_eq (List.mem_of_mem_erase hMem)
                (hSound.claim?_eq_some_iff.mp hClaim).1
                hEq.symm)
          rw [hErased, SortedMap.find?_erase, if_neg hKey]
          exact hPlaced
      · intro first second slot hFirst hSecond
        exact hSound.apart first second slot
          (find?_of_find?_drop hSound hClaim hFirst)
          (find?_of_find?_drop hSound hClaim hSecond)
      · intro key slot hSlot
        rw [hFresh]
        exact hSound.used key slot
          (find?_of_find?_drop hSound hClaim hSlot)
      · rw [drop_claims hClaim]
        intro d hMem hHeld
        have hOther : d ≠ c :=
          (hNodup.mem_erase_iff.mp hMem).1
        have hFirst :=
          hSound.first d (List.mem_of_mem_erase hMem) hHeld
        unfold owner? at hFirst ⊢
        rw [drop_claims hClaim]
        exact find?_erase_of_ne hFirst hOther

/- Who has released a lock claims nothing. -/
theorem claim?_drop_self
    {handle : String}
    {l : KeyedLock}
    (hSound : l.Sound) :
    (l.drop handle).claim? handle = none := by
  cases hClaim : l.claim? handle with
  | none =>
      simp only [KeyedLock.drop, hClaim]
  | some c =>
      cases hFound : (l.drop handle).claim? handle with
      | none => rfl
      | some d =>
          have hNodup : l.claims.Nodup :=
            List.Nodup.of_map Claim.handle hSound.handles
          rcases hSound.drop.claim?_eq_some_iff.mp hFound with
            ⟨hMem, hHandle⟩
          rcases hSound.claim?_eq_some_iff.mp hClaim with
            ⟨hIn, hSame⟩
          rw [drop_claims hClaim, hNodup.mem_erase_iff] at hMem
          exact absurd
            (hSound.eq_of_handle hMem.2 hIn
              (hHandle.trans hSame.symm))
            hMem.1

theorem claim?_drop_of_ne
    {handle other : String}
    {l : KeyedLock}
    (hSound : l.Sound)
    (hOther : other ≠ handle) :
    (l.drop handle).claim? other = l.claim? other := by
  cases hClaim : l.claim? handle with
  | none => simp only [KeyedLock.drop, hClaim]
  | some c =>
      rcases hSound.claim?_eq_some_iff.mp hClaim with
        ⟨-, hHandle⟩
      cases hBefore : l.claim? other with
      | some d =>
          rcases hSound.claim?_eq_some_iff.mp hBefore with
            ⟨-, hSecond⟩
          have hNe : d ≠ c := by
            intro hEq
            exact hOther (by rw [← hSecond, hEq, hHandle])
          unfold claim? at hBefore ⊢
          rw [drop_claims hClaim]
          exact find?_erase_of_ne hBefore hNe
      | none =>
          unfold claim? at hBefore ⊢
          rw [drop_claims hClaim, List.find?_eq_none]
          rw [List.find?_eq_none] at hBefore
          exact fun d hMem =>
            hBefore d (List.mem_of_mem_erase hMem)

theorem mem_claims_drop
    {handle : String}
    {l : KeyedLock}
    {d : Claim}
    (hMem : d ∈ (l.drop handle).claims) :
    d ∈ l.claims := by
  cases hClaim : l.claim? handle with
  | none =>
      simpa only [KeyedLock.drop, hClaim] using hMem
  | some c =>
      rw [drop_claims hClaim] at hMem
      exact List.mem_of_mem_erase hMem

------------------------------------------------------------
-- A lock that nobody else asks for
------------------------------------------------------------

/- Who asks alone for a lock has the one claim to it. -/
theorem Idle.claims_lock
    {l : KeyedLock}
    (hIdle : l.Idle)
    (handle key : String) :
    (l.lock handle key).claims
      = [⟨handle, key, (l.slotFor key).1, true⟩] := by
  simp [lock_eq_poll_asked, KeyedLock.poll, KeyedLock.asked,
    claim?, owner?, hIdle.claims]

/- Nothing changes when a lock is looked at once more. -/
theorem Idle.poll_lock
    {l : KeyedLock}
    (hIdle : l.Idle)
    (handle key : String) :
    ((l.lock handle key).poll handle).claims
      = [⟨handle, key, (l.slotFor key).1, true⟩] := by
  simp [KeyedLock.poll, claim?, owner?,
    hIdle.claims_lock handle key]

/- Who asks alone for a lock holds it at once. -/
theorem Idle.standing_lock
    {l : KeyedLock}
    (hIdle : l.Idle)
    (handle key : String) :
    ((l.lock handle key).poll handle).standing handle
      = .held := by
  simp [standing, claim?, hIdle.poll_lock handle key]

/- When it is released, nobody asks for any lock. -/
theorem Idle.drop_lock
    {l : KeyedLock}
    (hIdle : l.Idle)
    (handle key : String) :
    (((l.lock handle key).poll handle).drop handle).Idle := by
  have hFree : ∀ c ∈ l.claims, c.handle ≠ handle := by
    rw [hIdle.claims]
    nofun
  have hClaim :
      ((l.lock handle key).poll handle).claim? handle
        = some ⟨handle, key, (l.slotFor key).1, true⟩ := by
    simp [claim?, hIdle.poll_lock handle key]
  refine ⟨((hIdle.sound.lock hFree).poll handle).drop, ?_⟩
  rw [drop_claims hClaim, hIdle.poll_lock]
  exact List.erase_cons_head _ _

end KeyedLock

end JourneyMatch

import JourneyMatch.Proofs.KeyedLock

/-
  This file shows that keyed locks are exclusive and fair.
  Beside the lock stands a plain record of the requests that
  are alive, in the order in which they were made, which
  knows neither slots nor references. After any steps, with
  handles that are not used twice at a time, the claims of
  the lock are these requests, and the lock of a key belongs
  to the earliest of them for that key.

  Who owns a lock is told by looking: it holds the lock, or
  would hold it if it were asked again. So a lock that was
  handed over to one who has not looked yet has an owner.

  Key definitions include:
    * `LockStep`
    * `LockStep.record`
    * `KeyedLock.run`
    * `KeyedLock.requests`
    * `KeyedLock.Tracks`
    * `KeyedLock.Owns`

  Main statements:
    * `KeyedLock.Tracks.apply`
    * `KeyedLock.tracks_run`
    * `KeyedLock.Tracks.owns_iff`
    * `KeyedLock.served_in_order`
-/

namespace JourneyMatch

------------------------------------------------------------
-- Requests and steps
------------------------------------------------------------

/- A request for the lock of a key. -/
structure LockRequest where
  handle : String
  key : String
  deriving DecidableEq, Repr

/-
  A step on a keyed lock: a request that is tried once, a
  second look at one, or its end, be it that the lock is
  released or that the wait is given up.
-/
inductive LockStep where
  | lock (handle key : String)
  | poll (handle : String)
  | drop (handle : String)
  deriving DecidableEq, Repr

namespace LockStep

/- What a step makes of a lock. -/
def apply : LockStep → KeyedLock → KeyedLock
  | .lock handle key, l => l.lock handle key
  | .poll handle, l => l.poll handle
  | .drop handle, l => l.drop handle

/- What a step makes of the requests that are alive. -/
def record :
    LockStep → List LockRequest → List LockRequest
  | .lock handle key, alive => alive ++ [⟨handle, key⟩]
  | .poll _, alive => alive
  | .drop handle, alive =>
      alive.filter fun r => r.handle ≠ handle

/- Whether a step makes a request under a handle of its own. -/
def FreshAmong
    (alive : List LockRequest) : LockStep → Prop
  | .lock handle _ => ∀ r ∈ alive, r.handle ≠ handle
  | .poll _ => True
  | .drop _ => True

instance
    (alive : List LockRequest) :
    DecidablePred (FreshAmong alive) := fun next => by
  cases next <;> unfold FreshAmong <;> infer_instance

/- The key on which a step is, if its handle is alive. -/
def keyAmong?
    (alive : List LockRequest) : LockStep → Option String
  | .lock _ key => some key
  | .poll handle =>
      (alive.find? fun r => r.handle = handle).map
        LockRequest.key
  | .drop handle =>
      (alive.find? fun r => r.handle = handle).map
        LockRequest.key

/- The handle of a step. -/
def handle : LockStep → String
  | .lock handle _ => handle
  | .poll handle => handle
  | .drop handle => handle

/- The step of a handle that is alive is on its key. -/
theorem keyAmong?_of_mem
    {alive : List LockRequest}
    {next : LockStep}
    {r : LockRequest}
    (hHandles : (alive.map LockRequest.handle).Nodup)
    (hFresh : next.FreshAmong alive)
    (hMem : r ∈ alive)
    (hHandle : r.handle = next.handle) :
    next.keyAmong? alive = some r.key := by
  have hFound :
      alive.find? (fun s => s.handle = next.handle) = some r :=
    (find?_eq_some_iff_of_nodup hHandles).mpr ⟨hMem, hHandle⟩
  cases next with
  | lock handle key => exact absurd hHandle (hFresh r hMem)
  | poll handle => exact congrArg (Option.map _) hFound
  | drop handle => exact congrArg (Option.map _) hFound

/- A step on another key leaves the line of a key as it is. -/
theorem filter_record
    {alive : List LockRequest}
    {next : LockStep}
    {key : String}
    (hHandles : (alive.map LockRequest.handle).Nodup)
    (hOther : next.keyAmong? alive ≠ some key) :
    (next.record alive).filter (fun r => r.key = key)
      = alive.filter fun r => r.key = key := by
  cases next with
  | lock handle other =>
      have hKey : ¬ other = key := by
        intro hSame
        exact hOther (congrArg some hSame)
      simp [record, List.filter_append, hKey]
  | poll handle => rfl
  | drop handle =>
      rw [record, List.filter_filter]
      apply List.filter_congr
      intro r hMem
      by_cases hKey : r.key = key
      · have hHandle : r.handle ≠ handle := by
          intro hSame
          have hStep :
              keyAmong? alive (.drop handle) = some r.key :=
            keyAmong?_of_mem hHandles trivial hMem hSame
          exact hOther (hStep.trans (congrArg some hKey))
        simp [hKey, hHandle]
      · simp [hKey]

end LockStep

/- The request of a claim. -/
def Claim.request
    (c : Claim) : LockRequest :=
  ⟨c.handle, c.key⟩

namespace KeyedLock

/- What steps make of a lock, one after the other. -/
def run :
    List LockStep → KeyedLock → KeyedLock
  | [], l => l
  | next :: rest, l => run rest (next.apply l)

/- What steps make of the requests that are alive. -/
def requests :
    List LockStep → List LockRequest → List LockRequest
  | [], alive => alive
  | next :: rest, alive => requests rest (next.record alive)

/- Whether no handle makes a request while it has one. -/
def Fresh :
    List LockStep → List LockRequest → Prop
  | [], _ => True
  | next :: rest, alive =>
      next.FreshAmong alive ∧ Fresh rest (next.record alive)

instance :
    (steps : List LockStep) →
    (alive : List LockRequest) →
    Decidable (Fresh steps alive)
  | [], _ => isTrue trivial
  | next :: rest, alive =>
      have := instDecidableFresh rest (next.record alive)
      inferInstanceAs (Decidable (_ ∧ _))

------------------------------------------------------------
-- The claims are the requests that are alive
------------------------------------------------------------

/-
  Whether a lock is sound and its claims are given requests,
  in their order.
-/
structure Tracks
    (alive : List LockRequest)
    (l : KeyedLock) : Prop where
  sound : l.Sound
  requests : l.claims.map Claim.request = alive

theorem tracks_empty :
    Tracks [] empty :=
  ⟨idle_empty.sound, rfl⟩

/- Asking again neither makes nor ends a request. -/
theorem requests_poll
    (handle : String)
    (l : KeyedLock) :
    (l.poll handle).claims.map Claim.request
      = l.claims.map Claim.request := by
  rcases poll_cases handle l with
    hSame | ⟨c, -, -, hPoll⟩
  · rw [hSame]
  · rw [hPoll, List.map_map]
    apply List.map_congr_left
    intro d _
    simp only [Function.comp_apply, Claim.request, handle_taken,
      key_taken]

/- Who asks for a lock comes last. -/
theorem requests_lock
    (handle key : String)
    (l : KeyedLock) :
    (l.lock handle key).claims.map Claim.request
      = l.claims.map Claim.request ++ [⟨handle, key⟩] := by
  rw [lock_eq_poll_asked, requests_poll, asked, List.map_append]
  rfl

/- Who lets go of a lock is in line no more. -/
theorem Sound.requests_drop
    {l : KeyedLock}
    (hSound : l.Sound)
    (handle : String) :
    (l.drop handle).claims.map Claim.request
      = (l.claims.map Claim.request).filter
        fun r => r.handle ≠ handle := by
  have hLeft :
      (l.drop handle).claims
        = l.claims.filter fun d => d.handle ≠ handle := by
    cases hClaim : l.claim? handle with
    | none =>
        have hNobody := claim?_eq_none_iff.mp hClaim
        have hSame : l.drop handle = l := by
          simp only [KeyedLock.drop, hClaim]
        rw [hSame, eq_comm, List.filter_eq_self]
        intro d hMem
        simpa using hNobody d hMem
    | some c =>
        rcases hSound.claim?_eq_some_iff.mp hClaim with
          ⟨hIn, hHandle⟩
        have hNodup : l.claims.Nodup :=
          List.Nodup.of_map Claim.handle hSound.handles
        rw [drop_claims hClaim, hNodup.erase_eq_filter]
        apply List.filter_congr
        intro d hMem
        have hOther : d = c ↔ d.handle = handle := by
          constructor
          · intro hSame
            rw [hSame, hHandle]
          · intro hSame
            exact hSound.eq_of_handle hMem hIn
              (hSame.trans hHandle.symm)
        simp [bne, beq_eq_decide, hOther]
  rw [hLeft, List.filter_map]
  rfl

theorem Tracks.handles
    {alive : List LockRequest}
    {l : KeyedLock}
    (hTracks : Tracks alive l) :
    (alive.map LockRequest.handle).Nodup := by
  rw [← hTracks.requests, List.map_map]
  exact hTracks.sound.handles

/- A fresh handle makes no claim. -/
theorem Tracks.free
    {alive : List LockRequest}
    {l : KeyedLock}
    {handle key : String}
    (hTracks : Tracks alive l)
    (hFresh : (LockStep.lock handle key).FreshAmong alive) :
    ∀ c ∈ l.claims, c.handle ≠ handle := by
  intro c hMem
  rw [← hTracks.requests] at hFresh
  exact hFresh _ (List.mem_map_of_mem hMem)

/- What one step makes of the claims and of the requests. -/
theorem Tracks.apply
    {alive : List LockRequest}
    {l : KeyedLock}
    {next : LockStep}
    (hTracks : Tracks alive l)
    (hFresh : next.FreshAmong alive) :
    Tracks (next.record alive) (next.apply l) := by
  have hSound := hTracks.sound
  have hAlive := hTracks.requests
  cases next with
  | lock handle key =>
      refine ⟨hSound.lock (hTracks.free hFresh), ?_⟩
      rw [LockStep.apply, requests_lock, hAlive]
      rfl
  | poll handle =>
      exact ⟨hSound.poll handle, (requests_poll handle l).trans hAlive⟩
  | drop handle =>
      refine ⟨hSound.drop, ?_⟩
      rw [LockStep.apply, hSound.requests_drop, hAlive]
      rfl

/- So it is after any number of steps. -/
theorem tracks_run
    {steps : List LockStep}
    {alive : List LockRequest}
    {l : KeyedLock}
    (hTracks : Tracks alive l)
    (hFresh : Fresh steps alive) :
    Tracks (requests steps alive) (run steps l) := by
  induction steps generalizing alive l with
  | nil => exact hTracks
  | cons next rest ih =>
      exact ih (hTracks.apply hFresh.1) hFresh.2

------------------------------------------------------------
-- Owners
------------------------------------------------------------

/-
  Whether a handle owns the lock of a key: it asked for it,
  and holds it as soon as it looks.
-/
def Owns
    (handle key : String)
    (l : KeyedLock) : Prop :=
  ∃ c,
    l.claim? handle = some c
      ∧ c.key = key
      ∧ (l.poll handle).standing handle = .held

/- A claim is held when it is, or when its turn has come. -/
theorem Sound.standing_poll_iff
    {l : KeyedLock}
    {handle : String}
    {c : Claim}
    (hSound : l.Sound)
    (hClaim : l.claim? handle = some c) :
    (l.poll handle).standing handle = .held
      ↔ l.owner? c.slot = some c := by
  have hMem := (hSound.claim?_eq_some_iff.mp hClaim).1
  by_cases hOwner : l.owner? c.slot = some c
  · rw [poll_of_owner hClaim hOwner, standing, claim?_taken,
      hClaim]
    simp [taken, hOwner]
  · have hSame : l.poll handle = l := by
      simp only [KeyedLock.poll, hClaim, if_neg hOwner]
    have hWaits : c.held = false := by
      cases hHeld : c.held with
      | false => rfl
      | true => exact absurd (hSound.first c hMem hHeld) hOwner
    simp [hSame, standing, hClaim, hWaits, hOwner]

/- The owner of a slot is the earliest claim to its key. -/
theorem Sound.owner?_eq
    {l : KeyedLock}
    {c : Claim}
    (hSound : l.Sound)
    (hMem : c ∈ l.claims) :
    l.owner? c.slot
      = (l.claims.filter fun d => d.key = c.key).head? := by
  rw [owner?, ← List.head?_filter]
  congr 1
  apply List.filter_congr
  intro d hIn
  have hSlots : d.slot = c.slot ↔ d.key = c.key := by
    constructor
    · intro hSlot
      have hPlaced := hSound.placed d hIn
      rw [hSlot] at hPlaced
      exact hSound.apart _ _ _ hPlaced (hSound.placed c hMem)
    · exact hSound.slot_eq hIn hMem
  simp only [hSlots]

/- The lock of a key is that of the earliest request for it. -/
theorem Tracks.owns_iff
    {alive : List LockRequest}
    {l : KeyedLock}
    {handle key : String}
    (hTracks : Tracks alive l) :
    l.Owns handle key
      ↔ (alive.filter fun r => r.key = key).head?
        = some ⟨handle, key⟩ := by
  have hSound := hTracks.sound
  have hLine :
      (alive.filter fun r => r.key = key).head?
        = ((l.claims.filter fun d => d.key = key).head?).map
          Claim.request := by
    rw [← hTracks.requests, List.filter_map, List.head?_map]
    rfl
  rw [hLine, Option.map_eq_some_iff]
  constructor
  · rintro ⟨c, hClaim, hKey, hHeld⟩
    rcases hSound.claim?_eq_some_iff.mp hClaim with
      ⟨hMem, hHandle⟩
    have hOwner := (hSound.standing_poll_iff hClaim).mp hHeld
    rw [hSound.owner?_eq hMem, hKey] at hOwner
    exact ⟨c, hOwner, by rw [Claim.request, hHandle, hKey]⟩
  · rintro ⟨c, hFirst, hRequest⟩
    cases hRequest
    have hMem : c ∈ l.claims :=
      List.mem_of_mem_filter (List.mem_of_mem_head? hFirst)
    have hClaim : l.claim? c.handle = some c :=
      hSound.claim?_eq_some_iff.mpr ⟨hMem, rfl⟩
    refine ⟨c, hClaim, rfl, ?_⟩
    apply (hSound.standing_poll_iff hClaim).mpr
    rw [hSound.owner?_eq hMem]
    exact hFirst

/- A key for which there is a request has an owner. -/
theorem Tracks.exists_owner
    {alive : List LockRequest}
    {l : KeyedLock}
    {r : LockRequest}
    (hTracks : Tracks alive l)
    (hMem : r ∈ alive) :
    ∃ handle, l.Owns handle r.key := by
  have hLine : r ∈ alive.filter fun s => s.key = r.key := by
    simpa using hMem
  obtain ⟨first, rest, hCons⟩ :=
    List.exists_cons_of_ne_nil (List.ne_nil_of_mem hLine)
  have hFirst : first.key = r.key := by
    have hIn :
        first ∈ alive.filter fun s => s.key = r.key := by
      rw [hCons]
      exact List.mem_cons_self
    simpa using (List.mem_filter.mp hIn).2
  refine ⟨first.handle, hTracks.owns_iff.mpr ?_⟩
  rw [hCons, ← hFirst]
  rfl

/- No key has two owners. -/
theorem Tracks.owner_unique
    {alive : List LockRequest}
    {l : KeyedLock}
    {first second key : String}
    (hTracks : Tracks alive l)
    (hFirst : l.Owns first key)
    (hSecond : l.Owns second key) :
    first = second := by
  have hHead := hTracks.owns_iff.mp hFirst
  rw [hTracks.owns_iff.mp hSecond] at hHead
  cases hHead
  rfl

------------------------------------------------------------
-- How handles stand
------------------------------------------------------------

/- Who stands in line has a request that is alive. -/
theorem Tracks.standing_ne_absent_iff
    {alive : List LockRequest}
    {l : KeyedLock}
    {handle : String}
    (hTracks : Tracks alive l) :
    l.standing handle ≠ .absent
      ↔ ∃ r ∈ alive, r.handle = handle := by
  have hAbsent :
      l.standing handle = .absent
        ↔ l.claim? handle = none := by
    unfold standing
    cases l.claim? handle with
    | none => simp
    | some c =>
        rcases c with ⟨_, _, _, _ | _⟩ <;> simp
  rw [ne_eq, hAbsent, Sound.claim?_eq_none_iff,
    ← hTracks.requests]
  simp [Claim.request]

/- Only who owns the lock of its key can hold it. -/
theorem Tracks.owns_of_held
    {alive : List LockRequest}
    {l : KeyedLock}
    {r : LockRequest}
    (hTracks : Tracks alive l)
    (hMem : r ∈ alive)
    (hHeld : l.standing r.handle = .held) :
    l.Owns r.handle r.key := by
  have hSound := hTracks.sound
  rw [← hTracks.requests] at hMem
  rcases List.mem_map.mp hMem with ⟨c, hIn, hSame⟩
  subst hSame
  have hClaim : l.claim? c.handle = some c :=
    hSound.claim?_eq_some_iff.mpr ⟨hIn, rfl⟩
  have hTaken : c.held = true := by
    simpa [Claim.request, standing, hClaim] using hHeld
  exact
    ⟨c, hClaim, rfl,
      (hSound.standing_poll_iff hClaim).mpr
        (hSound.first c hIn hTaken)⟩

/- A step changes how its own handle stands, and no other. -/
theorem Tracks.standing_apply
    {alive : List LockRequest}
    {l : KeyedLock}
    {next : LockStep}
    {handle : String}
    (hTracks : Tracks alive l)
    (hFresh : next.FreshAmong alive)
    (hOther : handle ≠ next.handle) :
    (next.apply l).standing handle = l.standing handle := by
  have hSound := hTracks.sound
  have hClaim :
      (next.apply l).claim? handle = l.claim? handle := by
    cases next with
    | lock first key =>
        exact
          claim?_lock_of_ne hSound (hTracks.free hFresh) hOther
    | poll first => exact claim?_poll_of_ne hSound hOther
    | drop first => exact claim?_drop_of_ne hSound hOther
  simp only [standing, hClaim]

/- A step on one key leaves those who ask for another alone. -/
theorem Tracks.apart
    {alive : List LockRequest}
    {l : KeyedLock}
    {next : LockStep}
    {r : LockRequest}
    (hTracks : Tracks alive l)
    (hFresh : next.FreshAmong alive)
    (hOther : next.keyAmong? alive ≠ some r.key)
    (hMem : r ∈ alive) :
    (next.apply l).standing r.handle = l.standing r.handle
      ∧ ((next.apply l).Owns r.handle r.key
        ↔ l.Owns r.handle r.key) := by
  have hHandle : r.handle ≠ next.handle := by
    intro hSame
    exact hOther
      (LockStep.keyAmong?_of_mem hTracks.handles hFresh hMem
        hSame)
  refine ⟨hTracks.standing_apply hFresh hHandle, ?_⟩
  rw [(hTracks.apply hFresh).owns_iff,
    LockStep.filter_record hTracks.handles hOther,
    hTracks.owns_iff]

------------------------------------------------------------
-- Exclusive and fair
------------------------------------------------------------

/-
  After any steps in which no handle makes a request while it
  has one: the handles that stand in line are those of the
  requests that are alive; the lock of a key has at most one
  owner, and one as soon as there is a request for it; the
  owner is the earliest such request, and nobody else holds
  the lock; and a step on another key changes neither how the
  requests for this one stand nor who owns it.
-/
theorem served_in_order
    {steps : List LockStep}
    (hFresh : Fresh steps [])
    (key : String) :
    let l := run steps empty
    let alive := requests steps []
    let line := alive.filter fun r => r.key = key
    (∀ handle,
        l.standing handle ≠ .absent
          ↔ ∃ r ∈ alive, r.handle = handle)
      ∧ (∀ first second,
        l.Owns first key → l.Owns second key → first = second)
      ∧ ((∃ r ∈ alive, r.key = key) →
        ∃! handle, l.Owns handle key)
      ∧ (∀ handle,
        l.Owns handle key ↔ line.head? = some ⟨handle, key⟩)
      ∧ (∀ r ∈ alive,
        r.key = key →
          l.standing r.handle = .held → l.Owns r.handle key)
      ∧ ∀ next : LockStep,
        next.FreshAmong alive →
          next.keyAmong? alive ≠ some key →
            ∀ r ∈ alive,
              r.key = key →
                (next.apply l).standing r.handle
                    = l.standing r.handle
                  ∧ ((next.apply l).Owns r.handle key
                    ↔ l.Owns r.handle key) := by
  intro l alive line
  have hTracks : Tracks alive l := tracks_run tracks_empty hFresh
  refine
    ⟨fun handle => hTracks.standing_ne_absent_iff,
      fun first second => hTracks.owner_unique, ?_,
      fun handle => hTracks.owns_iff, ?_, ?_⟩
  · rintro ⟨r, hMem, hKey⟩
    rw [← hKey]
    rcases hTracks.exists_owner hMem with ⟨handle, hOwns⟩
    exact
      ⟨handle, hOwns, fun other hOther =>
        hTracks.owner_unique hOther hOwns⟩
  · intro r hMem hKey hHeld
    rw [← hKey]
    exact hTracks.owns_of_held hMem hHeld
  · intro next hNext hOther r hMem hKey
    rw [← hKey] at hOther ⊢
    exact hTracks.apart hNext hOther hMem

/-
  The first of three in line gives the lock back, and the
  second one gives up before it has looked: the lock belongs
  to the third, which has not looked either.
-/
def seenLine : List LockStep :=
  [.lock "first" "key", .lock "second" "key",
    .lock "third" "key", .lock "other" "another",
    .drop "first", .drop "second"]

theorem served_in_order_seenLine :
    Fresh seenLine []
      ∧ requests seenLine []
        = [⟨"third", "key"⟩, ⟨"other", "another"⟩]
      ∧ (run seenLine empty).standing "third" = .waiting
      ∧ (run seenLine empty).Owns "third" "key"
      ∧ ∃! handle, (run seenLine empty).Owns handle "key" := by
  have hFresh : Fresh seenLine [] := by decide
  have hAlive :
      requests seenLine []
        = [⟨"third", "key"⟩, ⟨"other", "another"⟩] := by
    decide
  rcases served_in_order hFresh "key" with
    ⟨-, -, hOne, hOwner, -, -⟩
  refine ⟨hFresh, hAlive, by decide, ?_, ?_⟩
  · rw [hOwner, hAlive]
    decide
  · exact hOne ⟨⟨"third", "key"⟩, by rw [hAlive]; decide, rfl⟩

end KeyedLock

end JourneyMatch

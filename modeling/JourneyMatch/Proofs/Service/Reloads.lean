import JourneyMatch.Proofs.Matcher.Feed
import JourneyMatch.Proofs.Matcher.Isolation
import JourneyMatch.Proofs.Settings.Load
import JourneyMatch.Proofs.Task.Scheduled
import JourneyMatch.Service.Basic

/-
  This file shows that a reload is all or nothing, whatever
  else a service does before and after it. Nothing but a
  reload touches the settings. One that fails leaves them as
  they are; one that succeeds replaces the period, the usual
  expiry and the buffer, and leaves the store where it is. So
  at any time these are together what the last load that
  succeeded gave, and the matcher and the loop go by them.

  Key definitions include:
    * `LiveSettings.Holds`
    * `Service.GoesBy`
    * `ServiceMove`
    * `Service.moveAll`
    * `Service.latest`

  Main statements:
    * `LiveSettings.Holds.reload`
    * `Service.GoesBy.reload`
    * `Service.GoesBy.move`
    * `Service.reloads_whole`
-/

namespace JourneyMatch

------------------------------------------------------------
-- The settings after a reload
------------------------------------------------------------

/-
  Whether the cells hold given settings, and the store lies
  under a path.
-/
structure LiveSettings.Holds
    (storePath : String)
    (s : Settings)
    (l : LiveSettings) : Prop where
  storePath : l.storePath = storePath
  frequency : l.frequency.value = s.frequency
  expiry : l.expiry.value = s.expiry
  buffer : l.buffer.value = s.buffer

namespace LiveSettings

theorem holds_new
    (s : Settings) :
    (new s).Holds s.storePath s :=
  ⟨rfl, rfl, rfl, rfl⟩

/- A load that fails changes nothing. -/
theorem reload_of_error
    {file : Option (List UInt8)}
    {storePath : Option String}
    {cause : SettingsError}
    (hLoad : Settings.load file storePath = .error cause)
    (l : LiveSettings) :
    l.reload file storePath = l := by
  rw [reload, hLoad]

/- A load that succeeds replaces all but the store path. -/
theorem reload_of_ok
    {file : Option (List UInt8)}
    {storePath : Option String}
    {s : Settings}
    (hLoad : Settings.load file storePath = .ok s)
    (l : LiveSettings) :
    l.reload file storePath = l.install s := by
  rw [reload, hLoad]

theorem Holds.reload
    {path : String}
    {s : Settings}
    {l : LiveSettings}
    (hHolds : l.Holds path s)
    (file : Option (List UInt8))
    (storePath : Option String) :
    (l.reload file storePath).Holds path
      ((Settings.load file storePath).toOption.getD s) := by
  cases hLoad : Settings.load file storePath with
  | error cause =>
      rw [reload_of_error hLoad]
      exact hHolds
  | ok t =>
      rw [reload_of_ok hLoad]
      exact ⟨hHolds.storePath, rfl, rfl, rfl⟩

end LiveSettings

------------------------------------------------------------
-- What the service goes by
------------------------------------------------------------

namespace Matcher

/- No call changes the usual expiry. -/
theorem expiry_handleAll
    (now : Readings)
    (events : List Event)
    (m : Matcher) :
    (m.handleAll now events).2.expiry = m.expiry := by
  induction events generalizing m with
  | nil => rfl
  | cons e events ih =>
      rw [handleAll_cons]
      exact (ih _).trans (expiry_handle now e m)

theorem expiry_run
    (now : Readings)
    (f : Feed)
    (m : Matcher) :
    (m.run now f).2.expiry = m.expiry := by
  have hFollow : (m.follow now f).2.expiry = m.expiry := by
    rw [follow_eq]
    split
    · rfl
    · exact expiry_handleAll now f.events m
  exact hFollow

theorem expiry_clear
    (subscription : String)
    (m : Matcher) :
    (m.clear subscription).2.expiry = m.expiry := by
  rw [clear_rest]

end Matcher

/- Time that passes leaves a loop its period. -/
theorem TickLoop.period_pass
    (millis : Nat)
    (t : TickLoop) :
    (t.pass millis).2.period = t.period := by
  rw [pass]
  split <;> rfl

/-
  Whether a service has given settings, and its matcher and
  its loop go by them.
-/
structure Service.GoesBy
    (l : LiveSettings)
    (s : Service) : Prop where
  settings : s.settings = l
  expiry : s.matcher.expiry = l.expiry.value
  period :
    ∀ loop ∈ s.loop, loop.period = l.frequency.value

namespace Service

theorem goesBy_begin
    (l : LiveSettings)
    (tags : TagSource)
    (now : Instant)
    (store : Store) :
    (Service.begin l tags now store).GoesBy l :=
  ⟨rfl, rfl, fun _ hLoop => nomatch hLoop⟩

namespace GoesBy

variable {l : LiveSettings}
variable {s : Service}

/- An operation on the matcher that keeps the usual expiry. -/
theorem onMatcher
    {ρ : Type}
    {operation : Matcher → ρ × Matcher}
    (hGoes : s.GoesBy l)
    (hExpiry :
      (operation s.matcher).2.expiry = s.matcher.expiry) :
    (s.onMatcher operation).2.GoesBy l :=
  ⟨hGoes.settings, hExpiry.trans hGoes.expiry, hGoes.period⟩

theorem setStore
    (hGoes : s.GoesBy l)
    (store : Store) :
    (s.setStore store).GoesBy l :=
  ⟨hGoes.settings, hGoes.expiry, hGoes.period⟩

theorem handle
    (hGoes : s.GoesBy l)
    (events : List Event) :
    (s.handle events).2.GoesBy l :=
  hGoes.onMatcher (Matcher.expiry_handleAll _ events _)

theorem fire
    (hGoes : s.GoesBy l)
    (due : Instant) :
    (s.fire due).2.GoesBy l :=
  hGoes.setStore _

theorem setClock
    (hGoes : s.GoesBy l)
    (now : Instant) :
    (s.setClock now).GoesBy l :=
  ⟨hGoes.settings, hGoes.expiry, hGoes.period⟩

theorem fireRepeatedly
    (hGoes : s.GoesBy l)
    (times : Nat) :
    (fireRepeatedly times s).2.GoesBy l := by
  induction times generalizing s with
  | zero => exact hGoes
  | succ times ih =>
      have hFire := hGoes.fire s.now
      rw [Service.fireRepeatedly]
      generalize s.fire s.now = fired at hFire
      rcases fired with ⟨_ | ⟨first, firings⟩, t⟩
      · exact hFire
      · exact ih hFire

theorem giveWay
    (hGoes : s.GoesBy l) :
    s.giveWay.2.GoesBy l := by
  have hFired :
      (if s.restless then Service.fireRepeatedly mostFirings s
        else ([], s)).2.GoesBy l := by
    split
    · exact hGoes.fireRepeatedly mostFirings
    · exact hGoes
  rw [Service.giveWay]
  generalize
    (if s.restless then Service.fireRepeatedly mostFirings s
      else ([], s)) = fired at hFired
  rcases fired with ⟨firings, t⟩
  have hHandled := GoesBy.handle hFired t.underWay
  exact ⟨hHandled.settings, hHandled.expiry, hHandled.period⟩

/- A loop that starts takes the period of the settings. -/
theorem start
    (hGoes : s.GoesBy l) :
    s.start.2.GoesBy l := by
  cases hLoop : s.loop with
  | some loop =>
      rw [Service.start, hLoop]
      exact hGoes
  | none =>
      have hBefore := hGoes.giveWay
      rw [Service.start, hLoop]
      generalize s.giveWay = given at hBefore
      rcases given with ⟨before, t⟩
      apply giveWay
      refine ⟨hBefore.settings, hBefore.expiry, ?_⟩
      intro loop hNew
      cases hNew
      exact
        congrArg (fun l => l.frequency.value) hBefore.settings

theorem withoutLoop
    (hGoes : s.GoesBy l) :
    Service.GoesBy l { s with loop := none } :=
  ⟨hGoes.settings, hGoes.expiry, fun _ hLoop => nomatch hLoop⟩

theorem halt
    (hGoes : s.GoesBy l) :
    s.halt.2.GoesBy l := by
  rw [Service.halt]
  split
  · exact hGoes
  · exact hGoes.withoutLoop.giveWay

theorem restart
    (hGoes : s.GoesBy l) :
    s.restart.2.GoesBy l := by
  have hGiven := hGoes.withoutLoop.giveWay
  rw [Service.restart]
  generalize
    Service.giveWay { s with loop := none } = given at hGiven
  rcases given with ⟨turn, t⟩
  have hSettings : t.settings = l := hGiven.settings
  rw [← hSettings]
  exact goesBy_begin _ _ _ _

theorem advance
    (hGoes : s.GoesBy l)
    (millis : Nat) :
    (s.advance millis).2.GoesBy l := by
  have hGiven :=
    (hGoes.setClock ⟨s.now.nanos + millis * 1000000⟩).giveWay
  rw [Service.advance]
  generalize
    (s.setClock ⟨s.now.nanos + millis * 1000000⟩).giveWay
      = given at hGiven
  rcases given with ⟨turn, t⟩
  cases hLoop : t.loop with
  | none =>
      simp only [hLoop]
      exact hGiven
  | some loop =>
      simp only [hLoop]
      have hNext :
          Service.GoesBy l
            { t with loop := some (loop.pass millis).2 } := by
        refine ⟨hGiven.settings, hGiven.expiry, ?_⟩
        intro next hNext
        cases hNext
        rw [TickLoop.period_pass]
        exact hGiven.period loop hLoop
      generalize loop.pass millis = passed at hNext
      rcases passed with ⟨_ | _, next⟩
      · exact hNext
      · exact hNext.fire t.now

/-
  A service that adopts other settings goes by them, where a
  period that is another one has another version.
-/
theorem adopt
    {other : LiveSettings}
    (hGoes : s.GoesBy l)
    (hVersion :
      l.frequency.version < other.frequency.version
        ∨ other.frequency.value = l.frequency.value) :
    (s.adopt other).GoesBy other := by
  refine ⟨rfl, rfl, ?_⟩
  intro loop hLoop
  rw [Service.adopt, hGoes.settings] at hLoop
  simp only at hLoop
  split at hLoop
  · rcases Option.map_eq_some_iff.mp hLoop with ⟨old, -, rfl⟩
    rfl
  · rename_i hOld
    rw [hVersion.resolve_left hOld]
    exact hGoes.period loop hLoop

/- After a reload a service goes by the reloaded settings. -/
theorem reload
    (hGoes : s.GoesBy l)
    (file : Option (List UInt8))
    (storePath : Option String) :
    (s.reload file storePath).2.GoesBy
      (l.reload file storePath) := by
  have hGiven := hGoes.giveWay
  rw [Service.reload]
  generalize s.giveWay = given at hGiven
  rcases given with ⟨before, t⟩
  have hSettings : t.settings = l := hGiven.settings
  subst hSettings
  apply giveWay
  apply hGiven.adopt
  cases hLoad : Settings.load file storePath with
  | error cause =>
      rw [LiveSettings.reload_of_error hLoad]
      exact .inr rfl
  | ok loaded =>
      rw [LiveSettings.reload_of_ok hLoad]
      exact .inl (Nat.lt_succ_self _)

end GoesBy

end Service

------------------------------------------------------------
-- Histories of a service
------------------------------------------------------------

/-
  What can happen to a service: a reload, or what leaves its
  settings alone. That is any call, any change of the store,
  anything that is done about tasks, the clock and the loop,
  and an end with a new beginning.
-/
inductive ServiceMove where
  | reload
      (file : Option (List UInt8))
      (storePath : Option String)
  | handle (events : List Event)
  | call (events : List Event)
  | run (f : Feed)
  | clear (subscription : String)
  | edit (change : Store → Store)
  | listen (type : String) (listener : Listener)
  | scheduleAt (requests : List TaskRequest)
  | scheduleSweeps
      (now : Instant)
      (requests : List SweepRequest)
  | fire (due : Instant)
  | setClock (now : Instant)
  | closeOutput
  | start
  | halt
  | advance (millis : Nat)
  | restart

/- What a move loads, if it is a reload that succeeds. -/
def ServiceMove.loaded? : ServiceMove → Option Settings
  | .reload file storePath =>
      (Settings.load file storePath).toOption
  | _ => none

namespace Service

/- A service after a move. -/
def move
    (s : Service) : ServiceMove → Service
  | .reload file storePath => (s.reload file storePath).2
  | .handle events => (s.handle events).2
  | .call events => s.call events
  | .run f => (s.run f).2
  | .clear subscription =>
      (s.onMatcher (Matcher.clear subscription)).2
  | .edit change => s.setStore (change s.store)
  | .listen type listener => s.listen type listener
  | .scheduleAt requests => (s.scheduleAt requests).2
  | .scheduleSweeps now requests =>
      (s.scheduleSweeps now requests).2
  | .fire due => (s.fire due).2
  | .setClock now => s.setClock now
  | .closeOutput => s.closeOutput
  | .start => s.start.2
  | .halt => s.halt.2
  | .advance millis => (s.advance millis).2
  | .restart => s.restart.2

/- A service after moves, one after the other. -/
def moveAll :
    List ServiceMove → Service → Service
  | [], s => s
  | next :: rest, s => moveAll rest (s.move next)

/- What was loaded last, or what was loaded first of all. -/
def latest
    (first : Settings)
    (moves : List ServiceMove) : Settings :=
  (moves.filterMap ServiceMove.loaded?).getLast?.getD first

theorem latest_cons
    (first : Settings)
    (next : ServiceMove)
    (rest : List ServiceMove) :
    latest first (next :: rest)
      = latest (next.loaded?.getD first) rest := by
  cases hLoaded : next.loaded? with
  | none =>
      rw [latest, List.filterMap_cons_none hLoaded]
      rfl
  | some s =>
      rw [latest, List.filterMap_cons_some hLoaded,
        List.getLast?_cons]
      rfl

/-
  After a move a service goes by settings that are reloaded
  if the move was a reload, and are the same otherwise.
-/
theorem GoesBy.move
    {path : String}
    {first : Settings}
    {l : LiveSettings}
    {s : Service}
    (hGoes : s.GoesBy l)
    (hHolds : l.Holds path first)
    (next : ServiceMove) :
    ∃ after,
      (s.move next).GoesBy after
        ∧ after.Holds path (next.loaded?.getD first) := by
  cases next with
  | reload file storePath =>
      exact
        ⟨_, hGoes.reload file storePath,
          hHolds.reload file storePath⟩
  | handle events => exact ⟨l, hGoes.handle events, hHolds⟩
  | run f =>
      exact
        ⟨l, hGoes.onMatcher (Matcher.expiry_run _ f _),
          hHolds⟩
  | clear subscription =>
      exact
        ⟨l, hGoes.onMatcher (Matcher.expiry_clear subscription _),
          hHolds⟩
  | fire due => exact ⟨l, hGoes.fire due, hHolds⟩
  | start => exact ⟨l, hGoes.start, hHolds⟩
  | halt => exact ⟨l, hGoes.halt, hHolds⟩
  | advance millis => exact ⟨l, hGoes.advance millis, hHolds⟩
  | restart => exact ⟨l, hGoes.restart, hHolds⟩
  | _ =>
      exact
        ⟨l, ⟨hGoes.settings, hGoes.expiry, hGoes.period⟩, hHolds⟩

theorem GoesBy.moveAll
    {path : String}
    {first : Settings}
    {l : LiveSettings}
    {s : Service}
    (hGoes : s.GoesBy l)
    (hHolds : l.Holds path first)
    (moves : List ServiceMove) :
    ∃ after,
      (s.moveAll moves).GoesBy after
        ∧ after.Holds path (latest first moves) := by
  induction moves generalizing l s first with
  | nil => exact ⟨l, hGoes, hHolds⟩
  | cons next rest ih =>
      rcases hGoes.move hHolds next with
        ⟨middle, hMiddle, hNext⟩
      rw [latest_cons]
      exact ih hMiddle hNext

/- What was loaded last is sound if the first load was. -/
theorem sound_latest
    {first : Settings}
    (hFirst : first.Sound)
    (moves : List ServiceMove) :
    (latest first moves).Sound := by
  rw [latest]
  cases hLast :
      (moves.filterMap ServiceMove.loaded?).getLast? with
  | none => exact hFirst
  | some s =>
      rcases List.mem_filterMap.mp
          (List.mem_of_getLast? hLast) with
        ⟨next, -, hLoaded⟩
      cases next with
      | reload file storePath =>
          rw [ServiceMove.loaded?] at hLoaded
          cases hLoad : Settings.load file storePath with
          | error cause =>
              rw [hLoad] at hLoaded
              cases hLoaded
          | ok t =>
              rw [hLoad] at hLoaded
              cases hLoaded
              exact (Settings.loaded_of_load hLoad).sound
      | _ => cases hLoaded

/-
  A service begins with settings that were loaded, and then
  anything happens to it. Its settings are those of the last
  load that succeeded, except that the store lies where it
  lay at first; nothing in them is empty or zero. Its matcher
  and its loop go by them, and so do the next removals that
  are scheduled: each is due at the end of the expiry that it
  asks for or else of the one loaded last. From there a reload
  that fails leaves all settings as they are, and one that
  succeeds replaces them by what the file states, the given
  store path, and the usual settings.
-/
theorem reloads_whole
    {file : Option (List UInt8)}
    {storePath : Option String}
    {first : Settings}
    (hFirst : Settings.load file storePath = .ok first)
    (tags : TagSource)
    (start : Instant)
    (store : Store)
    (moves : List ServiceMove) :
    let s :=
      (Service.begin (.new first) tags start store).moveAll moves
    let last := latest first moves
    first.Loaded file storePath
      ∧ s.settings.Holds first.storePath last
      ∧ last.Sound
      ∧ s.GoesBy s.settings
      ∧ (∀ now requests,
        (s.scheduleSweeps now requests).1
            = (Janitor.schedule now last.expiry requests
              s.matcher.tags s.store).1
          ∧ (s.scheduleSweeps now requests).2.store
            = (Janitor.schedule now last.expiry requests
              s.matcher.tags s.store).2.2)
      ∧ (∀ now : Instant,
        Instant.first.nanos ≤ now.nanos →
          ∀ requests,
            let tasks :=
              removalTasks now last.expiry requests s.matcher.tags
            (s.scheduleSweeps now requests).1
                = tasks.map Task.key
              ∧ (s.scheduleSweeps now requests).2.store
                = TaskQueue.schedule tasks s.store)
      ∧ (∀ file storePath cause,
        Settings.load file storePath = .error cause →
          (s.reload file storePath).2.settings = s.settings)
      ∧ ∀ file storePath next,
        Settings.load file storePath = .ok next →
          next.Loaded file storePath
            ∧ (s.reload file storePath).2.settings.Holds
              first.storePath next := by
  intro s last
  have hLoaded := Settings.loaded_of_load hFirst
  rcases (goesBy_begin (.new first) tags start store).moveAll
      (LiveSettings.holds_new first) moves with
    ⟨l, hGoes, hHolds⟩
  have hSettings : s.settings = l := hGoes.settings
  have hExpiry : s.matcher.expiry = last.expiry :=
    hGoes.expiry.trans hHolds.expiry
  rw [hSettings]
  refine
    ⟨hLoaded, hHolds, sound_latest hLoaded.sound moves, hGoes,
      ?_, ?_, ?_, ?_⟩
  · intro now requests
    rw [← hExpiry]
    exact ⟨rfl, rfl⟩
  · intro now hYears requests tasks
    have hSchedule :=
      Janitor.schedule_eq hYears s.matcher.expiry requests
        s.matcher.tags s.store
    rw [hExpiry] at hSchedule
    rw [scheduleSweeps, hExpiry, hSchedule]
    exact ⟨rfl, rfl⟩
  · intro file storePath cause hLoad
    rw [(hGoes.reload file storePath).settings,
      LiveSettings.reload_of_error hLoad]
  · intro file storePath next hLoad
    refine ⟨Settings.loaded_of_load hLoad, ?_⟩
    have hReload := hHolds.reload file storePath
    rw [hLoad] at hReload
    rw [(hGoes.reload file storePath).settings]
    exact hReload

/-
  A service begins without a file. Then there is one with an
  expiry of a minute, one that is no text, and one with an
  expiry of zero.
-/
def seenReloads : List ServiceMove :=
  ["[janitor]\nsweep_expiry_ms = 60000\n".toUTF8.data.toList,
    [0xFF],
    "[janitor]\nsweep_expiry_ms = 0\n".toUTF8.data.toList].map
      fun bytes => .reload (some bytes) none

/- Two removals to schedule, one with an expiry of its own. -/
def seenRequests : List SweepRequest :=
  [⟨"pending:relayed", "first", none⟩,
    ⟨"pending:relayed", "second", some 5000⟩]

theorem reloads_whole_seenReloads :
    let s :=
      (Service.begin (.new .usual) .counted ⟨0⟩ .empty).moveAll
        seenReloads
    Settings.load none none = .ok .usual
      ∧ s.settings.Holds "./data/xcmon"
        { Settings.usual with expiry := 60000 }
      ∧ s.matcher.expiry = 60000
      ∧ (s.scheduleSweeps ⟨1000000000⟩ seenRequests).1
        = [taskKey ⟨61000000000⟩ (countedTag 0),
          taskKey ⟨6000000000⟩ (countedTag 1)] := by
  have hFirst : Settings.load none none = .ok .usual := rfl
  have hLast :
      latest .usual seenReloads
        = { Settings.usual with expiry := 60000 } := by
    rfl
  rcases reloads_whole hFirst .counted ⟨0⟩ .empty seenReloads with
    ⟨-, hHolds, -, hGoes, -, hDue, -⟩
  have hKeys :=
    (hDue ⟨1000000000⟩ (by decide) seenRequests).1
  rw [hLast] at hHolds hKeys
  exact
    ⟨hFirst, hHolds, hGoes.expiry.trans hHolds.expiry,
      hKeys.trans rfl⟩

end Service

end JourneyMatch

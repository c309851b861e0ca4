import JourneyMatch.Proofs.Time.Delay
import JourneyMatch.Task.Janitor

/-
  This file says which tasks the janitor schedules: one for
  each removal, due at the end of the removal's own expiry or
  else of the usual one, with a tag of its own.

  Key definitions include:
    * `Instant.later`
    * `removalTasks`

  Main statements:
    * `Janitor.due_eq`
    * `drawTasks_eq`
    * `Janitor.schedule_eq`
-/

namespace JourneyMatch

/-
  The instant that is later by some milliseconds, or the last
  one of all years.
-/
def Instant.later
    (millis : Nat)
    (t : Instant) : Instant :=
  ⟨min (t.nanos + millis * 1000000) last.nanos⟩

/- A removal is due at the end of its expiry. -/
theorem Janitor.due_eq
    {now : Instant}
    (hFirst : Instant.first.nanos ≤ now.nanos)
    (expiry : Nat) :
    Janitor.due now expiry = now.later expiry := by
  apply congrArg Instant.mk
  rw [← Moment.localNanos_utc now] at hFirst
  rw [Moment.nanos_after hFirst, Moment.utc, Int.natCast_mul,
    Int.cast_ofNat_Int, Int.zero_mul, Int.sub_zero]

/- Tasks have the tags that are drawn one after the other. -/
theorem drawTasks_eq
    (requests : List TaskRequest)
    (tags : TagSource) :
    drawTasks requests tags
      = (requests.mapIdx fun i r =>
            r.task (tags.tag (tags.drawn + i)),
          { tags with drawn := tags.drawn + requests.length }) := by
  induction requests generalizing tags with
  | nil => rfl
  | cons r rest ih =>
      rw [drawTasks, ih]
      simp [TagSource.next, TagSource.draw, Nat.add_comm,
        Nat.add_left_comm]

/-
  The tasks of removals that are asked for at an instant,
  where there is a usual expiry.
-/
def removalTasks
    (now : Instant)
    (usual : Nat)
    (requests : List SweepRequest)
    (tags : TagSource) : List Task :=
  requests.mapIdx fun i r =>
    { key :=
        taskKey (now.later (r.expiry.getD usual))
          (tags.tag (tags.drawn + i))
      type := "janitor.sweep"
      payload :=
        .object
          [("key", .string r.key),
            ("sublevel", .string r.level)] }

/- These are put into the queue, and their keys are given. -/
theorem Janitor.schedule_eq
    {now : Instant}
    (hFirst : Instant.first.nanos ≤ now.nanos)
    (usual : Nat)
    (requests : List SweepRequest)
    (tags : TagSource)
    (s : Store) :
    Janitor.schedule now usual requests tags s
      = ((removalTasks now usual requests tags).map Task.key,
          { tags with drawn := tags.drawn + requests.length },
          TaskQueue.schedule
            (removalTasks now usual requests tags) s) := by
  have hTasks :
      ((requests.map (Janitor.request now usual)).mapIdx
          fun i r => r.task (tags.tag (tags.drawn + i)))
        = removalTasks now usual requests tags := by
    refine List.ext_getElem (by simp [removalTasks]) ?_
    intro i _ _
    simp only [List.getElem_mapIdx, List.getElem_map,
      removalTasks, Janitor.request, TaskRequest.task,
      Janitor.due_eq hFirst]
    rfl
  simp only [Janitor.schedule, drawTasks_eq, hTasks,
    List.length_map]

end JourneyMatch

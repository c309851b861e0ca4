import JourneyMatch.Notices
import JourneyMatch.Proofs.Intake.Lines
import JourneyMatch.Proofs.Json.Plain
import JourneyMatch.Proofs.Pending.Accepted
import JourneyMatch.Proofs.Pending.Legs

/-
  This file says that the output of notifications loses
  nothing. Every notification is one line, so the lines of
  the output are those of the notifications that it took; and
  a notification without doubles is read back from its line
  as it was, unless it is nested too deep or traps assets
  that are null.

  Key definitions include:
    * `Outlet.fitting`
    * `Notification.AsRead`
    * `Notification.DoubleFree`

  Main statements:
    * `Notices.run_eq`
    * `Notices.lined_join`
    * `Notification.parse_text_blanks`
    * `Notices.run_framed`
-/

namespace JourneyMatch

------------------------------------------------------------
-- What an output takes
------------------------------------------------------------

namespace Outlet

/-
  How many of so many lines go into an output that has room
  for a number of them, or for any number.
-/
def fitting :
    Option Nat → Nat → Nat
  | none, lines => lines
  | some room, lines => min room lines

/-
  An output refuses a line if it has no room, and otherwise
  appends it and has room for one line less.
-/
theorem take?_cases
    (text : String)
    (o : Outlet) :
    (o.take? text = none ∧ ∀ lines, fitting o.room lines = 0)
      ∨ ∃ next,
        o.take? text = some next
          ∧ next.text = o.text ++ text
          ∧ ∀ lines,
            fitting o.room (lines + 1)
              = fitting next.room lines + 1 := by
  rcases o with ⟨before, room⟩
  rcases room with _ | _ | room
  · exact .inr ⟨_, rfl, rfl, fun _ => rfl⟩
  · exact .inl ⟨rfl, fun lines => Nat.zero_min lines⟩
  · exact
      .inr ⟨_, rfl, rfl, fun lines =>
        Nat.succ_min_succ room lines⟩

end Outlet

namespace Notices

/-
  Notifications are written and counted in their order, as
  far as the output has room for them.
-/
theorem run_eq
    (count : Nat)
    (ns : List Notification)
    (o : Outlet) :
    (run count ns o).1
        = count + Outlet.fitting o.room ns.length
      ∧ (run count ns o).2.text
        = o.text
          ++ String.join
            ((ns.take (Outlet.fitting o.room ns.length)).map
              line) := by
  induction ns generalizing count o with
  | nil =>
      have hNone : Outlet.fitting o.room 0 = 0 := by
        rcases o with ⟨before, _ | room⟩
        · rfl
        · exact Nat.min_zero room
      simp [run, hNone, String.join_nil]
  | cons n ns ih =>
      rw [run]
      rcases o.take?_cases (line n) with
        ⟨hRefused, hFull⟩ | ⟨next, hTaken, hText, hRoom⟩
      · simp [hRefused, hFull, String.join_nil]
      · rcases ih (count + 1) next with ⟨hCount, hWritten⟩
        simp only [hTaken, List.length_cons, hRoom,
          List.take_succ_cons, List.map_cons, String.join_cons]
        rw [hCount, hWritten, hText]
        constructor
        · omega
        · rw [String.append_assoc]

end Notices

------------------------------------------------------------
-- Reading a notification back
------------------------------------------------------------

/- An optional value holds if no value is printed as null. -/
theorem Shape.holds_optional
    (P : Json → Prop)
    (inner : Shape)
    (hInner : ∀ x, inner.Holds P x)
    (hThere : ∀ x, inner.json x ≠ .null)
    (x : Option inner.Carrier) :
    (Shape.optional inner).Holds P x := by
  cases x with
  | none => trivial
  | some y => exact ⟨hInner y, hThere y⟩

/- Only its event is without a shape in a waypoint. -/
theorem Waypoint.holds
    {P : Json → Prop}
    {w : Waypoint}
    (hEvent : P w.event) :
    (Shape.record Waypoint.fields).Holds P (Wire.pack w) :=
  ⟨trivial, trivial, trivial,
    Shape.holds_optional P .word64 (fun _ => trivial)
      (fun _ => nofun) w.timestamp,
    trivial,
    Shape.holds_optional P .text (fun _ => trivial)
      (fun _ => nofun) w.error,
    hEvent, trivial⟩

namespace Notification

/-
  Whether the values without a shape in a notification are as
  a program holds them: their objects settled, and their
  integers of at most 64 bits.
-/
structure AsRead
    (n : Notification) : Prop where
  sender : n.sender.AsRead
  origin : n.origin.event.AsRead
  waypoint : n.waypoint.event.AsRead
  assets : ∀ j, n.assetsTrapped = some j → j.AsRead

/- Whether all numbers in a notification are integers. -/
def DoubleFree
    (n : Notification) : Prop :=
  ∀ number ∈ (Wire.json n).numbers, number.IsInteger

theorem holds
    {n : Notification}
    (hRead : n.AsRead)
    (hAssets : n.assetsTrapped ≠ some .null) :
    (Wire.shape Notification).Holds Json.AsRead
      (Wire.pack n) := by
  have hTrapped :
      (Shape.optional .free).Holds Json.AsRead
        n.assetsTrapped := by
    cases hSome : n.assetsTrapped with
    | none => trivial
    | some j =>
        refine ⟨hRead.assets j hSome, ?_⟩
        rintro rfl
        exact hAssets hSome
  exact
    ⟨trivial, trivial, trivial,
      Shape.holds_optional Json.AsRead .text (fun _ => trivial)
        (fun _ => nofun) n.messageId,
      hRead.sender, fun l _ => Leg.holds Json.AsRead l, trivial,
      Waypoint.holds hRead.origin, ⟨trivial, trivial⟩,
      Waypoint.holds hRead.waypoint, hTrapped, trivial⟩

/-
  The text of a notification, and blanks behind it, are read
  as the notification, unless it is nested too deep.
-/
theorem parse_text_blanks
    {n : Notification}
    {blanks : String}
    (hRead : n.AsRead)
    (hFree : n.DoubleFree)
    (hAssets : n.assetsTrapped ≠ some .null)
    (hBlanks : Blanks blanks.toList) :
    Wire.parse Notification (Wire.text n ++ blanks)
      = unlessDeeper (Wire.json n).depth 127 n := by
  have hDecoded :
      (Wire.shape Notification).Decoded (Wire.json n).depth
        (Wire.pack n) :=
    ⟨holds hRead hAssets, Nat.le_refl _⟩
  have hText :
      Wire.text n ++ blanks
        = String.ofList
          ((Shape.record fields).write (Wire.pack n)
            ++ blanks.toList) := by
    rw [String.ofList_append, String.ofList_toList]
    rfl
  rw [hText,
    ← Wire.reread_eq_of_decoded (by decide) hDecoded hFree 127]
  exact
    congrArg (Except.map Wire.unpack)
      (Shape.parse_record (by decide) (Wire.pack n) hBlanks)

end Notification

------------------------------------------------------------
-- Lines
------------------------------------------------------------

/- The text of a value has no line break in it. -/
theorem Wire.newline_notMem_utf8_text
    {α : Type}
    [Wire α]
    (x : α) :
    newline ∉ utf8 (text x) := by
  have hPlain := Json.plain_write (json x)
  rw [json, Shape.write_json] at hPlain
  rw [newline_mem_utf8_iff, text, String.toList_ofList]
  exact hPlain.newline_notMem

namespace Notices

/- The bytes of a line end with a newline. -/
theorem utf8_line
    (n : Notification) :
    utf8 (line n) = utf8 (Wire.text n) ++ [newline] := by
  rw [line, utf8_append]
  rfl

/- What is written consists of lines, all of them ended. -/
theorem lined_join
    (ns : List Notification) :
    Lined (utf8 (String.join (ns.map line)))
      (ns.map fun n => utf8 (Wire.text n)) [] := by
  induction ns with
  | nil => exact ⟨rfl, nofun, List.not_mem_nil⟩
  | cons n ns ih =>
      rw [List.map_cons, String.join_cons, utf8_append,
        utf8_line, List.append_assoc, List.singleton_append]
      exact ih.cons (Wire.newline_notMem_utf8_text n)

/-
  Of notifications, as many are written as the output has
  room for, in their order, and their number is returned.
  Each is a line with its only newline at its end, so the
  lines of the output are theirs. If a notification has no
  doubles, is nested at most 127 levels deep and traps no
  assets that are null, it is read back from its line, with
  or without the newline, as it was.
-/
theorem run_framed
    (room : Option Nat)
    (ns : List Notification) :
    let taken := ns.take (Outlet.fitting room ns.length)
    let (count, outlet) := run 0 ns (.empty room)
    count = Outlet.fitting room ns.length
      ∧ outlet.text = String.join (taken.map line)
      ∧ linesOf (utf8 outlet.text)
        = taken.map (fun n => utf8 (Wire.text n))
      ∧ (∀ n,
        utf8 (line n) = utf8 (Wire.text n) ++ [newline]
          ∧ newline ∉ utf8 (Wire.text n))
      ∧ ∀ n : Notification,
        n.AsRead →
          n.DoubleFree →
            (Wire.json n).depth ≤ 127 →
              n.assetsTrapped ≠ some .null →
                Wire.parse Notification (line n) = .ok n
                  ∧ Wire.parse Notification (Wire.text n)
                    = .ok n := by
  intro taken
  rcases run_eq 0 ns (.empty room) with ⟨hCount, hText⟩
  have hOutput :
      (run 0 ns (.empty room)).2.text
        = String.join (taken.map line) :=
    hText.trans String.empty_append
  refine ⟨hCount.trans (Nat.zero_add _), hOutput, ?_, ?_, ?_⟩
  · rw [hOutput, (lined_join taken).linesOf_eq]
    exact List.append_nil _
  · exact fun n => ⟨utf8_line n, Wire.newline_notMem_utf8_text n⟩
  · intro n hRead hFree hDepth hAssets
    have hReads :
        ∀ blanks : String,
          Blanks blanks.toList →
            Wire.parse Notification (Wire.text n ++ blanks)
              = .ok n := by
      intro blanks hBlanks
      rw [Notification.parse_text_blanks hRead hFree hAssets
        hBlanks, unlessDeeper, if_pos hDepth]
    have hNothing := hReads "" Blanks.nil
    rw [String.append_empty] at hNothing
    exact ⟨hReads "\n" (by decide), hNothing⟩

/- A notification of a sender with two lines and quotes. -/
def seenNotice : Notification :=
  { Notification.ofSent .received seenSent
      seenReceived.waypoint none with
    sender := .string "first\n\"second\"" }

/- The first of two is written, and read back. -/
theorem run_framed_seenNotice :
    seenNotice.AsRead
      ∧ seenNotice.DoubleFree
      ∧ (Wire.json seenNotice).depth ≤ 127
      ∧ seenNotice.assetsTrapped ≠ some .null
      ∧ (let (count, outlet) :=
          run 0 [seenNotice, seenNotice] (.empty (some 1))
        count = 1
          ∧ linesOf (utf8 outlet.text)
            = [utf8 (Wire.text seenNotice)])
      ∧ Wire.parse Notification (line seenNotice)
        = .ok seenNotice := by
  have hRead : seenNotice.AsRead :=
    ⟨⟨trivial, nofun⟩, ⟨trivial, nofun⟩, ⟨trivial, nofun⟩, nofun⟩
  have hFree : seenNotice.DoubleFree := by
    have hNumbers :
        (Wire.json seenNotice).numbers
          = [.integer 0, .integer 5, .integer 9] := rfl
    unfold Notification.DoubleFree
    rw [hNumbers]
    simp [Number.IsInteger]
  have hDepth : (Wire.json seenNotice).depth ≤ 127 := by
    decide
  rcases run_framed (some 1) [seenNotice, seenNotice] with
    ⟨hCount, -, hLines, -, hParse⟩
  exact
    ⟨hRead, hFree, hDepth, nofun, ⟨hCount, hLines⟩,
      (hParse seenNotice hRead hFree hDepth nofun).1⟩

end Notices

end JourneyMatch

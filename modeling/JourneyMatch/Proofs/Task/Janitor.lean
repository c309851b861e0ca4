import JourneyMatch.Proofs.Pending.Decoding
import JourneyMatch.Task.Janitor

/-
  This file says what the janitor reads: from the text of an
  object the task that it names, whatever its other members
  are, and so from the text of a record the task that removes
  it, whatever its message is; and from the text of its own
  task the level and the key that the task names.

  Key definitions include:
    * `ownedMembers`
    * `sweepText`

  Main statements:
    * `parse_expiryOwner`
    * `sweptBy_record`
    * `decodeStored_sweepText`
    * `decode_sweepPayload`
-/

namespace JourneyMatch

------------------------------------------------------------
-- Objects that name a task
------------------------------------------------------------

/- A member that nobody asks for changes nothing. -/
theorem reads_unasked
    {key : String}
    (hKey : key ≠ "expiryTask")
    (j : Json)
    (depth : Nat)
    (slots : ExpiryOwner.fields.Slots) :
    Reads (ExpiryOwner.fields.readMember depth key slots)
      (':' :: j.write) (.ok slots) := by
  intro rest hRest
  have hSkip := j.skipValue_write rest hRest
  rcases slots with ⟨slot, slots⟩
  simp only [ExpiryOwner.fields, Fields.readMember, hKey,
    if_false, List.cons_append, readColon_colon, hSkip, bind,
    Except.bind, Except.map]

/- A member that the janitor does not ask for. -/
def unaskedEntry
    (member : String × Json) :
    Entry ExpiryOwner.fields.Slots :=
  { key := member.1
    text := member.2.write
    effect := .ok }

/- The member that names the task of an entry. -/
def askedEntry
    (task : String) : Entry ExpiryOwner.fields.Slots :=
  { key := "expiryTask"
    text := Quoted.write task
    effect := fun slots =>
      if slots.1.isSome then
        .error (.mismatch (.duplicateField "expiryTask"))
      else
        .ok (some task, ()) }

theorem reads_askedEntry
    (task : String)
    (depth : Nat)
    (slots : ExpiryOwner.fields.Slots) :
    Reads
      (ExpiryOwner.fields.readMember depth "expiryTask" slots)
      (':' :: Quoted.write task)
      ((askedEntry task).effect slots) := by
  intro rest hRest
  have hText := reads_readText task rest hRest
  rcases slots with ⟨slot, slots⟩
  cases slot with
  | some other =>
      simp [askedEntry, ExpiryOwner.fields, Fields.readMember,
        Except.map]
  | none =>
      simp only [askedEntry, ExpiryOwner.fields,
        Fields.readMember, if_true, Option.isSome_none,
        Bool.false_eq_true, if_false, List.cons_append,
        readColon_colon, Shape.read, hText, bind, Except.bind,
        Except.map]

/-
  The members of an object that names a task, as the janitor
  reads them.
-/
def ownerEntries
    (before : List (String × Json))
    (task : String)
    (behind : List (String × Json)) :
    List (Entry ExpiryOwner.fields.Slots) :=
  before.map unaskedEntry
    ++ askedEntry task :: behind.map unaskedEntry

/- The members of an object, of which one names its task. -/
def ownedMembers
    (before : List (String × Json))
    (task : String)
    (behind : List (String × Json)) : List (String × Json) :=
  before ++ ("expiryTask", .string task) :: behind

section OwnedMembers

variable {before behind : List (String × Json)}

theorem reads_ownerEntries
    (hBefore : ∀ m ∈ before, m.1 ≠ "expiryTask")
    (hBehind : ∀ m ∈ behind, m.1 ≠ "expiryTask")
    (task : String)
    (depth : Nat) :
    ∀ e ∈ ownerEntries before task behind, ∀ slots,
      Reads (ExpiryOwner.fields.readMember depth e.key slots)
        (':' :: e.text) (e.effect slots) := by
  intro e hMem slots
  rcases List.mem_append.mp hMem with hFront | hRest
  · rcases List.mem_map.mp hFront with ⟨m, hIn, hEntry⟩
    subst hEntry
    exact reads_unasked (hBefore m hIn) m.2 depth slots
  · rcases List.mem_cons.mp hRest with hHere | hBack
    · subst hHere
      exact reads_askedEntry task depth slots
    · rcases List.mem_map.mp hBack with ⟨m, hIn, hEntry⟩
      subst hEntry
      exact reads_unasked (hBehind m hIn) m.2 depth slots

/- The object is printed as these members. -/
theorem ownerEntries_printed
    (before behind : List (String × Json))
    (task : String) :
    (ownerEntries before task behind).map Entry.printed
      = Json.writeMembers (ownedMembers before task behind) := by
  have hUnasked :
      ∀ members : List (String × Json),
        (members.map unaskedEntry).map Entry.printed
          = (members.map fun m => (m.1, m.2.write)).map
            keyedPair := by
    intro members
    rw [List.map_map, List.map_map]
    rfl
  rw [ownerEntries, ownedMembers, Json.writeMembers_eq,
    List.map_append, List.map_append, List.map_append,
    List.map_cons, List.map_cons, List.map_cons, hUnasked,
    hUnasked]
  rfl

/- Members that nobody asks for leave the slots as they are. -/
theorem run_append_unasked
    (members : List (String × Json))
    (entries : List (Entry ExpiryOwner.fields.Slots))
    (slots : ExpiryOwner.fields.Slots) :
    Entry.run (members.map unaskedEntry ++ entries) slots
      = Entry.run entries slots := by
  induction members with
  | nil => rfl
  | cons m members ih =>
      rw [List.map_cons, List.cons_append, Entry.run]
      exact ih

theorem run_ownerEntries
    (before behind : List (String × Json))
    (task : String) :
    Entry.run (ownerEntries before task behind)
        ExpiryOwner.fields.noSlots
      = .ok (some task, ()) := by
  have hBehind :=
    run_append_unasked behind [] (some task, ())
  rw [List.append_nil] at hBehind
  rw [ownerEntries, run_append_unasked, Entry.run]
  exact hBehind

/-
  The task that an object names is read, and all other
  members are passed over, whatever they are.
-/
theorem parse_expiryOwner
    (hBefore : ∀ m ∈ before, m.1 ≠ "expiryTask")
    (hBehind : ∀ m ∈ behind, m.1 ≠ "expiryTask")
    (task : String) :
    Wire.parse ExpiryOwner
        (Json.object (ownedMembers before task behind)).compact
      = .ok ⟨task⟩ := by
  have hReads :
      Reads ((Wire.shape ExpiryOwner).read greatestDepth)
        (Json.object (ownedMembers before task behind)).write
        (.ok (task, ())) := by
    intro rest hRest
    have hFront : isBlank '{' = false := by decide
    have hMembers :=
      readMembers_braced
        (reads_ownerEntries hBefore hBehind task 126)
        ExpiryOwner.fields.noSlots rest
    rw [ownerEntries_printed, run_ownerEntries] at hMembers
    change
      (Shape.record ExpiryOwner.fields).read (126 + 1) _ = _
    rw [Json.write, braced, List.cons_append,
      List.append_assoc, Shape.read]
    simp only [skipBlanks_cons hFront, List.cons_append,
      List.nil_append, hMembers, bind, Except.bind]
    rfl
  unfold Wire.parse Shape.parse Json.compact
  rw [readWhole?_of_reads hReads]
  rfl

end OwnedMembers

------------------------------------------------------------
-- Records
------------------------------------------------------------

/- A record is stored as an object that names its task. -/
theorem PendingRecord.exists_text
    {α : Type}
    [Wire α]
    (r : PendingRecord α) :
    ∃ before behind,
      (∀ m ∈ before, m.1 ≠ "expiryTask")
        ∧ (∀ m ∈ behind, m.1 ≠ "expiryTask")
        ∧ Wire.text r
          = (Json.object
            (ownedMembers before r.expiryTask behind)).compact := by
  have hWrite :=
    (Wire.shape (PendingRecord α)).write_json (Wire.pack r)
  have hText : Wire.text r = (Wire.json r).compact := by
    unfold Json.compact Wire.json
    rw [hWrite]
    rfl
  have hJson :
      Wire.json r
        = .object
          (ownedMembers
            (if (Wire.shape α).omits (Wire.pack r.message) then
              []
            else
              [("message", Wire.json r.message)])
            r.expiryTask
            [("storedAt",
              .number (.integer r.storedAt.toInt))]) := by
    change
      Json.object
          (if (Wire.shape α).omits (Wire.pack r.message) then _
          else _) = _
    split <;> rfl
  rw [hText, hJson]
  refine ⟨_, _, ?_, ?_, rfl⟩
  · split <;> simp
  · simp

/- A record is removed by the task that it names alone. -/
theorem sweptBy_record
    {α : Type}
    [Wire α]
    (r : PendingRecord α)
    (key : String) :
    sweptBy key (Wire.text r) = decide (r.expiryTask = key) := by
  rcases r.exists_text with
    ⟨before, behind, hBefore, hBehind, hText⟩
  rw [hText, sweptBy,
    parse_expiryOwner hBefore hBehind r.expiryTask]

theorem sweptBy_recordText
    (e : Event)
    (task key : String)
    (storedAt : Int64) :
    sweptBy key (e.recordText task storedAt)
      = decide (task = key) := by
  cases e with
  | sent m => exact sweptBy_record ⟨m, task, storedAt⟩ key
  | received m => exact sweptBy_record ⟨m, task, storedAt⟩ key
  | relayed m => exact sweptBy_record ⟨m, task, storedAt⟩ key

------------------------------------------------------------
-- Tasks
------------------------------------------------------------

/- What is stored for the task that removes an entry. -/
def sweepText
    (n : Namespace)
    (key : String) : String :=
  Wire.text
    (StoredTask.mk sweepType (SweepPayload.mk n.name key).json)

theorem settle_sweepPayload
    (p : SweepPayload) :
    p.json.settle = p.json := by
  have hOrder : ¬ "sublevel" < "key" := by decide
  simp only [SweepPayload.json, Json.settle,
    Json.settleMembers, Entries.insert]
  rw [if_neg hOrder, if_neg (by decide)]

/- The task of an entry is read as it was written. -/
theorem decodeStored_sweepText
    (n : Namespace)
    (key : String) :
    decodeStored StoredTask (sweepText n key)
      = .ok ⟨sweepType, (SweepPayload.mk n.name key).json⟩ := by
  have hNames : (Wire.shape StoredTask).wellNamed = true := by
    decide
  have hSettle :=
    settle_sweepPayload (SweepPayload.mk n.name key)
  have hReread :
      Wire.reread greatestDepth
          (StoredTask.mk sweepType
            (SweepPayload.mk n.name key).json)
        = .ok ⟨sweepType,
          (SweepPayload.mk n.name key).json.settle⟩ := by
    rfl
  rw [decodeStored, sweepText, Wire.parse_text hNames,
    hReread, hSettle]

/- The payload of such a task names the entry. -/
theorem decode_sweepPayload
    (p : SweepPayload) :
    Wire.decode SweepPayload p.json = .ok p := by
  cases p
  rfl

/- Two entries with the same task are the same. -/
theorem sweepText_injective
    {m n : Namespace}
    {key other : String}
    (hText : sweepText m key = sweepText n other) :
    m = n ∧ key = other := by
  have hRead := decodeStored_sweepText m key
  rw [hText, decodeStored_sweepText n other] at hRead
  simp only [Except.ok.injEq, StoredTask.mk.injEq,
    SweepPayload.json, Json.object.injEq, List.cons.injEq,
    Prod.mk.injEq, Json.string.injEq, true_and,
    and_true] at hRead
  exact ⟨(Namespace.name_injective hRead.2).symm, hRead.1.symm⟩

end JourneyMatch

import JourneyMatch.Proofs.Pending.Record
import JourneyMatch.Proofs.Wire.Nesting

/-
  This file says what is read of a record that was stored for
  an event. Its task and its time of storing are read as they
  were written, and so is its message, if the event can be
  stored at all.

  Key definitions include:
    * `Event.reread`

  Main statements:
    * `Event.decode_recordText`
    * `Event.storable_iff`
    * `Event.decodeJson_recordText`
    * `Event.subscription_reread`
-/

namespace JourneyMatch

------------------------------------------------------------
-- Records
------------------------------------------------------------

/- A record is well named if its message is. -/
theorem PendingRecord.wellNamed
    {α : Type}
    [Wire α]
    (hNames : (Wire.shape α).wellNamed = true) :
    (Wire.shape (PendingRecord α)).wellNamed = true := by
  change
    (decide ("message" ∉ ["expiryTask", "storedAt"])
      && (Wire.shape α).wellNamed
      && (decide ("expiryTask" ∉ ["storedAt"])
        && true && (decide ("storedAt" ∉ ([] : List String))
          && true && true))) = true
  rw [hNames]
  decide

/- A record is read with its task and its time. -/
theorem PendingRecord.reread_eq
    {α : Type}
    [Wire α]
    (depth : Nat)
    (message : α)
    (task : String)
    (storedAt : Int64)
    (hMessage :
      (Wire.shape α).omits (Wire.pack message) = false) :
    Wire.reread (depth + 1)
        (PendingRecord.mk message task storedAt)
      = (Wire.reread depth message).map
        fun x => ⟨x, task, storedAt⟩ := by
  have hText : ∀ x, Shape.text.omits x = false :=
    fun _ => rfl
  have hSigned : ∀ x, Shape.signed64.omits x = false :=
    fun _ => rfl
  have hSlots :
      (PendingRecord.fields (Wire.shape α)).rereadSlots depth
          (Wire.pack message, task, storedAt, ())
        = ((Wire.shape α).reread depth
            (Wire.pack message)).map
          fun x => (some x, some task, some storedAt, ()) := by
    simp only [PendingRecord.fields, Fields.rereadSlots,
      hMessage, hText, hSigned, Bool.false_eq_true, if_false,
      Shape.reread, bind, Except.bind]
    cases (Wire.shape α).reread depth (Wire.pack message) <;> rfl
  have hRecord :
      (Wire.shape (PendingRecord α)).reread (depth + 1)
          (Wire.pack (PendingRecord.mk message task storedAt))
        = ((Wire.shape α).reread depth
            (Wire.pack message)).map
          fun x => (x, task, storedAt, ()) := by
    change
      ((PendingRecord.fields (Wire.shape α)).rereadSlots depth
          (Wire.pack message, task, storedAt, ()) >>=
        fun slots =>
          fromMismatch
            ((PendingRecord.fields (Wire.shape α)).close
              slots)) = _
    rw [hSlots]
    cases (Wire.shape α).reread depth (Wire.pack message) <;> rfl
  unfold Wire.reread
  rw [hRecord]
  cases (Wire.shape α).reread depth (Wire.pack message) <;> rfl

/- Reading what is stored for a message. -/
theorem decodeStored_record
    {α : Type}
    [Wire α]
    (hNames : (Wire.shape α).wellNamed = true)
    (message : α)
    (task : String)
    (storedAt : Int64)
    (hMessage :
      (Wire.shape α).omits (Wire.pack message) = false) :
    decodeStored (PendingRecord α)
        (Wire.text (PendingRecord.mk message task storedAt))
      = match Wire.reread 126 message with
        | .ok x => .ok ⟨x, task, storedAt⟩
        | .error cause => .error (.codec cause) := by
  have hDepth : greatestDepth = 126 + 1 := rfl
  rw [decodeStored,
    Wire.parse_text (PendingRecord.wellNamed hNames), hDepth,
    PendingRecord.reread_eq 126 message task storedAt hMessage]
  cases Wire.reread 126 message <;> rfl

------------------------------------------------------------
-- Records of events
------------------------------------------------------------

namespace Event

/- What is read of the message of an event's record. -/
def reread : Event → Except StoreError Event
  | .sent m =>
      match Wire.reread 126 m with
      | .ok x => .ok (.sent x)
      | .error cause => .error (.codec cause)
  | .received m =>
      match Wire.reread 126 m with
      | .ok x => .ok (.received x)
      | .error cause => .error (.codec cause)
  | .relayed m =>
      match Wire.reread 126 m with
      | .ok x => .ok (.relayed x)
      | .error cause => .error (.codec cause)

/-
  Reading what is stored for an event: the message is fixed
  by the event, the rest is as it was written.
-/
theorem decode_recordText
    (e : Event)
    (task : String)
    (storedAt : Int64) :
    e.nameSpace.decode (e.recordText task storedAt)
      = e.reread.map fun x => ⟨x, task, storedAt⟩ := by
  cases e with
  | sent m =>
      have hNames : (Wire.shape Sent).wellNamed = true := by
        decide
      simp only [nameSpace, Namespace.decode, recordText,
        decodeStored_record hNames m task storedAt rfl, reread]
      cases Wire.reread 126 m <;> rfl
  | received m =>
      have hNames : (Wire.shape Received).wellNamed = true := by
        decide
      simp only [nameSpace, Namespace.decode, recordText,
        decodeStored_record hNames m task storedAt rfl, reread]
      cases Wire.reread 126 m <;> rfl
  | relayed m =>
      have hNames : (Wire.shape Relayed).wellNamed = true := by
        decide
      simp only [nameSpace, Namespace.decode, recordText,
        decodeStored_record hNames m task storedAt rfl, reread]
      cases Wire.reread 126 m <;> rfl

/- An event can be stored if its message is read as it was. -/
theorem storable_iff
    {e : Event} :
    e.Storable ↔ e.reread = .ok e := by
  constructor
  · rintro ⟨task, storedAt, r, hDecode, hMessage⟩
    rw [decode_recordText] at hDecode
    cases hReread : e.reread with
    | error cause => simp [hReread, Except.map] at hDecode
    | ok x =>
        rw [hReread] at hDecode
        cases hDecode
        simp only at hMessage
        rw [hMessage]
  · intro hReread
    refine ⟨"", 0, ⟨e, "", 0⟩, ?_, rfl⟩
    rw [decode_recordText, hReread]
    rfl

theorem Storable.decode_recordText
    {e : Event}
    (hStorable : e.Storable)
    (task : String)
    (storedAt : Int64) :
    e.nameSpace.decode (e.recordText task storedAt)
      = .ok ⟨e, task, storedAt⟩ := by
  rw [Event.decode_recordText, storable_iff.mp hStorable]
  rfl

theorem storable_seenSent :
    (sent seenSent).Storable :=
  storable_iff.mpr rfl

theorem storable_seenReceived :
    (received seenReceived).Storable :=
  storable_iff.mpr rfl

theorem storable_seenRelay :
    (relayed seenRelay).Storable :=
  storable_iff.mpr rfl

/- The events of a message over two legs can all be kept. -/
theorem storable_seenLegs :
    ∀ e ∈
        [sent seenHopSent, received seenHopReceived,
          relayed seenHopRelay, sent seenLastSent,
          received seenLastReceived],
      e.Storable := by
  simp only [List.forall_mem_cons]
  exact
    ⟨storable_iff.mpr rfl, storable_iff.mpr rfl,
      storable_iff.mpr rfl, storable_iff.mpr rfl,
      storable_iff.mpr rfl, List.forall_mem_nil _⟩

/- The message of an event as JSON. -/
def json : Event → Json
  | .sent m => Wire.json m
  | .received m => Wire.json m
  | .relayed m => Wire.json m

end Event

/- A record is stored as the record of its message's JSON. -/
theorem PendingRecord.text_json
    {α : Type}
    [Wire α]
    (message : α)
    (task : String)
    (storedAt : Int64)
    (hMessage :
      (Wire.shape α).omits (Wire.pack message) = false) :
    Wire.text (PendingRecord.mk message task storedAt)
      = Wire.text
        (PendingRecord.mk (Wire.json message) task storedAt) := by
  have hText :=
    (Wire.shape α).write_json (Wire.pack message)
  unfold Wire.text
  apply congrArg String.ofList
  change
    braced
        ((PendingRecord.fields (Wire.shape α)).write
          (Wire.pack message, task, storedAt, ()))
      = braced
        ((PendingRecord.fields .free).write
          (Wire.json message, task, storedAt, ()))
  have hFree : ∀ j, Shape.free.omits j = false := fun _ => rfl
  simp only [PendingRecord.fields, Fields.write, hMessage, hFree,
    Bool.false_eq_true, if_false]
  rw [← hText]
  rfl

/-
  A record that is read without the form of its message has
  the same task and the same time.
-/
theorem Event.decodeJson_recordText
    (e : Event)
    (task : String)
    (storedAt : Int64) :
    decodeStored (PendingRecord Json)
        (e.recordText task storedAt)
      = match Wire.reread 126 e.json with
        | .ok x => .ok ⟨x, task, storedAt⟩
        | .error cause => .error (.codec cause) := by
  have hText :
      e.recordText task storedAt
        = Wire.text
          (PendingRecord.mk e.json task storedAt) := by
    cases e with
    | sent m => exact PendingRecord.text_json m _ _ rfl
    | received m => exact PendingRecord.text_json m _ _ rfl
    | relayed m => exact PendingRecord.text_json m _ _ rfl
  have hNames : (Wire.shape Json).wellNamed = true := rfl
  rw [hText, decodeStored_record hNames e.json task storedAt rfl]
  cases Wire.reread 126 e.json <;> rfl

------------------------------------------------------------
-- The subscription of a record
------------------------------------------------------------

/- Reading an object again keeps the text in its front. -/
theorem Shape.fst_reread_record
    {name : String}
    {absence : Absence}
    {rest : Fields}
    {depth : Nat}
    {x y : (Fields.cons name .text absence rest).Carrier}
    (hReread :
      (Shape.record (.cons name .text absence rest)).reread
          depth x
        = .ok y) :
    y.1 = x.1 := by
  have hText : Shape.text.Holds Json.Exact x.1 := trivial
  rcases exists_slots_of_reread hReread with
    ⟨depth, slots, -, hSlots, hClose⟩
  exact
    (Fields.close_rereadSlots_cons rfl rfl hText hSlots
      hClose).1

/- Whatever is read of a record has the same subscription. -/
theorem Event.subscription_reread
    {e x : Event}
    (hReread : e.reread = .ok x) :
    x.subscription = e.subscription := by
  cases e with
  | sent m =>
      rcases hMessage : Wire.reread 126 m with cause | r <;>
        simp only [reread, hMessage] at hReread <;>
        cases hReread
      rcases Wire.exists_of_reread hMessage with
        ⟨y, hShape, hSame⟩
      subst hSame
      exact Shape.fst_reread_record hShape
  | received m =>
      rcases hMessage : Wire.reread 126 m with cause | r <;>
        simp only [reread, hMessage] at hReread <;>
        cases hReread
      rcases Wire.exists_of_reread hMessage with
        ⟨y, hShape, hSame⟩
      subst hSame
      exact Shape.fst_reread_record hShape
  | relayed m =>
      rcases hMessage : Wire.reread 126 m with cause | r <;>
        simp only [reread, hMessage] at hReread <;>
        cases hReread
      rcases Wire.exists_of_reread hMessage with
        ⟨y, hShape, hSame⟩
      subst hSame
      exact Shape.fst_reread_record hShape

end JourneyMatch

import JourneyMatch.Admin.Query
import JourneyMatch.Proofs.Matcher.Failure
import JourneyMatch.Proofs.Matcher.Isolation
import JourneyMatch.Proofs.Pending.Accepted
import JourneyMatch.Proofs.Store.Listing
import JourneyMatch.Proofs.Wire.Standing
import JourneyMatch.Proofs.Wire.Unshaped

/-
  This file says what is listed of a namespace. In every
  state of a history of storable events each entry is listed
  with its own record, in the order of the keys.

  Entries of one subscription are picked out by what their
  keys begin with. The subscription of an entry has no colon,
  and is what stands in front of the first colon of its key.
  So an asked subscription without a colon gets its own
  entries. One with a colon has none, and gets those of
  another subscription whose keys happen to begin with it.

  Key definitions include:
    * `PendingEntry.subscription?`
    * `PendingEntry.Shows`
    * `Admin.pending`

  Main statements:
    * `Event.Storable.decodeJson_recordText`
    * `Admin.exists_pending`
    * `Admin.listPending_own_iff`
    * `Admin.seenListed_other`
-/

namespace JourneyMatch

------------------------------------------------------------
-- The message of an entry
------------------------------------------------------------

/- The subscription that the message of an entry names. -/
def PendingEntry.subscription?
    (entry : PendingEntry) : Option String :=
  match entry.message with
  | .object members =>
      match Entries.find? "subscriptionId" members with
      | some (.string subscription) => some subscription
      | _ => none
  | _ => none

/- Members of other names do not hide a member. -/
theorem Json.find?_settleMembers
    {name : String}
    {members sorted : List (String × Json)}
    (hOthers : ∀ member ∈ members, member.1 ≠ name) :
    Entries.find? name (settleMembers members sorted)
      = Entries.find? name sorted := by
  induction members generalizing sorted with
  | nil => rw [settleMembers]
  | cons member members ih =>
      rcases member with ⟨other, value⟩
      have hOther : other ≠ name :=
        hOthers (other, value) List.mem_cons_self
      rw [settleMembers,
        ih fun m hMem => hOthers m (List.mem_cons_of_mem _ hMem),
        Entries.find?_insert, if_neg hOther]

/- The text in the front of an object is found in it. -/
theorem Shape.find?_json_front
    {name : String}
    {absence : Absence}
    {rest : Fields}
    (hOnce : name ∉ rest.names)
    (x : (Fields.cons name .text absence rest).Carrier) :
    ∃ members,
      ((Shape.record (.cons name .text absence rest)).json
            x).settle
          = .object members
        ∧ Entries.find? name members = some (.string x.1) := by
  refine
    ⟨Json.settleMembers (rest.json x.2)
      (Entries.insert name (.string x.1) []), rfl, ?_⟩
  rw [Json.find?_settleMembers, Entries.find?_insert, if_pos rfl]
  intro member hMem hSame
  apply hOnce
  rw [← hSame]
  exact
    Fields.mem_names_of_stands rest
      (Fields.stands_json rest x.2) member hMem

namespace Event

/- The message of an event names its subscription. -/
theorem find?_subscription
    (e : Event) :
    ∃ members,
      e.json.settle = .object members
        ∧ Entries.find? "subscriptionId" members
          = some (.string e.subscription) := by
  cases e with
  | sent m =>
      exact
        Shape.find?_json_front (by decide)
          (Wire.pack m : Sent.fields.Carrier)
  | received m =>
      exact
        Shape.find?_json_front (by decide)
          (Wire.pack m : Received.fields.Carrier)
  | relayed m =>
      exact
        Shape.find?_json_front (by decide)
          (Wire.pack m : Relayed.fields.Carrier)

/- A storable event is read as the JSON of its message. -/
theorem Storable.decodeJson_recordText
    {e : Event}
    (hStorable : e.Storable)
    (task : String)
    (storedAt : Int64) :
    decodeStored (PendingRecord Json)
        (e.recordText task storedAt)
      = .ok ⟨e.json.settle, task, storedAt⟩ := by
  have hReread := storable_iff.mp hStorable
  have hJson :
      Wire.reread 126 e.json = .ok e.json.settle := by
    cases e with
    | sent m =>
        rcases hMessage : Wire.reread 126 m with cause | x <;>
          simp only [reread, hMessage] at hReread <;>
          cases hReread
        exact Wire.reread_json Sent.pack_unpack hMessage
    | received m =>
        rcases hMessage : Wire.reread 126 m with cause | x <;>
          simp only [reread, hMessage] at hReread <;>
          cases hReread
        exact Wire.reread_json Received.pack_unpack hMessage
    | relayed m =>
        rcases hMessage : Wire.reread 126 m with cause | x <;>
          simp only [reread, hMessage] at hReread <;>
          cases hReread
        exact Wire.reread_json Relayed.pack_unpack hMessage
  rw [Event.decodeJson_recordText, hJson]

end Event

------------------------------------------------------------
-- Entries and events
------------------------------------------------------------

namespace PendingEntry

/-
  Whether an entry of a list shows an event that waits in a
  namespace, with the task and the time of its record.
-/
structure Shows
    (n : Namespace)
    (s : Store)
    (e : Event)
    (entry : PendingEntry) : Prop where
  nameSpace : entry.nameSpace = n.name
  kind : e.nameSpace = n
  key : e.key = .ok entry.key
  text :
    Pending.text? n entry.key s
      = some (e.recordText entry.expiryTask entry.storedAt)
  message : entry.message = e.json.settle

variable {n : Namespace}
variable {s : Store}
variable {e : Event}
variable {entry : PendingEntry}
variable {subscription : String}

theorem Shows.subscription?_eq
    (hShows : entry.Shows n s e) :
    entry.subscription? = some e.subscription := by
  rcases e.find?_subscription with ⟨members, hObject, hFound⟩
  rw [subscription?, hShows.message, hObject]
  simp only [hFound]

/-
  An entry is picked out for a subscription without a colon
  if that is the one its message names.
-/
theorem Shows.startsWith_iff
    (hShows : entry.Shows n s e)
    (hPlain : ':' ∉ subscription.toList) :
    Level.startsWith (subscriptionStart subscription) entry.key
        = true
      ↔ entry.subscription? = some subscription := by
  rcases Event.startsWith_key hShows.key with ⟨hValid, hOwn⟩
  rw [hShows.subscription?_eq, Option.some.injEq]
  constructor
  · intro hStarts
    rcases Level.startsWith_iff.mp hOwn with ⟨x, hLeft⟩
    rcases Level.startsWith_iff.mp hStarts with ⟨y, hRight⟩
    have hText := hLeft.trans hRight.symm
    simp only [subscriptionStart, String.toList_append,
      List.append_assoc] at hText
    exact String.toList_injective
      (append_colon_injective hValid.2 hPlain hText).1
  · intro hSame
    rw [← hSame]
    exact hOwn

/- No entry is of a subscription with a colon. -/
theorem Shows.subscription?_ne
    (hShows : entry.Shows n s e)
    (hColon : ':' ∈ subscription.toList) :
    entry.subscription? ≠ some subscription := by
  intro hNamed
  have hValid := (Event.startsWith_key hShows.key).1
  rw [hShows.subscription?_eq, Option.some.injEq] at hNamed
  rw [hNamed] at hValid
  exact hValid.2 hColon

end PendingEntry

------------------------------------------------------------
-- Lists
------------------------------------------------------------

namespace Admin

/- All entries of a namespace, if every one decodes. -/
def pending
    (n : Namespace)
    (s : Store) : Except StoreError (List PendingEntry) :=
  (decodeEntries (PendingRecord Json)
      (Pending.level n s).entries).map
    (List.map fun (key, record) => pendingEntry n key record)

variable {n : Namespace}
variable {s : Store}
variable {all : List PendingEntry}

/- The entries stand in the order of their keys. -/
theorem keys_pending
    (hPending : pending n s = .ok all) :
    all.map PendingEntry.key = (Pending.level n s).keys := by
  rcases Except.exists_of_map_eq_ok hPending with
    ⟨values, hRead, rfl⟩
  rw [List.map_map]
  exact keys_of_decodeEntries hRead

/- What a list is, for a namespace whose entries decode. -/
theorem listPending_eq
    (hPending : pending n s = .ok all)
    (subscription : Option String)
    (limit : Nat) :
    listPending n subscription limit s
      = .ok
        ((all.filter fun entry =>
            Level.startsWith (keyStart subscription)
              entry.key).take
          (clampLimit limit)) := by
  rcases Except.exists_of_map_eq_ok hPending with
    ⟨values, hRead, rfl⟩
  rw [listPending, Level.startingWith,
    decodeEntries_take
      (decodeEntries_filter hRead
        (Level.startsWith (keyStart subscription))),
    List.filter_map, ← List.map_take]
  rfl

/-
  If every entry is the record of a storable event, then the
  namespace decodes and shows these events.
-/
theorem exists_pending
    {m : Matcher}
    (hAuthored : m.Authored Event.Storable)
    (n : Namespace) :
    ∃ all,
      pending n m.store = .ok all
        ∧ ∀ entry ∈ all,
          ∃ e : Event, e.Storable ∧ entry.Shows n m.store e := by
  have hAuthor :
      ∀ entry ∈ (Pending.level n m.store).entries,
        ∃ e task storedAt,
          Event.Storable e
            ∧ e.nameSpace = n
            ∧ e.key = .ok entry.1
            ∧ entry.2 = e.recordText task storedAt := by
    rintro ⟨key, text⟩ hMem
    exact hAuthored n key text (SortedMap.mem_entries_iff.mp hMem)
  have hReadable :
      ∀ entry ∈ (Pending.level n m.store).entries,
        ∃ record,
          decodeStored (PendingRecord Json) entry.2
            = .ok record := by
    intro entry hMem
    rcases hAuthor entry hMem with
      ⟨e, task, storedAt, hStorable, -, -, hText⟩
    rw [hText]
    exact ⟨_, hStorable.decodeJson_recordText task storedAt⟩
  rcases exists_decodeEntries hReadable with ⟨values, hRead⟩
  refine ⟨_, by rw [pending, hRead, Except.map], ?_⟩
  intro listed hListed
  rcases List.mem_map.mp hListed with ⟨value, hValue, rfl⟩
  rcases exists_entry_of_decodeEntries hRead value hValue with
    ⟨entry, hEntry, hKey, hDecode⟩
  rcases hAuthor entry hEntry with
    ⟨e, task, storedAt, hStorable, hKind, hOwn, hText⟩
  rw [hText, hStorable.decodeJson_recordText,
    Except.ok.injEq] at hDecode
  have hStands :
      Pending.text? n entry.1 m.store = some entry.2 :=
    SortedMap.mem_entries_iff.mp hEntry
  refine ⟨e, hStorable, rfl, hKind, ?_, ?_, ?_⟩
  · rw [hOwn, ← hKey]
    rfl
  · simp only [pendingEntry, hKey, ← hDecode, hStands, hText]
  · simp only [pendingEntry, ← hDecode]

/-
  What is picked out by a key is what is of a subscription,
  as far as a list goes, if and only if the subscription has
  no colon or nothing is picked out.
-/
theorem take_picked_eq_iff
    {subscription : String}
    {count : Nat}
    (hShows :
      ∀ entry ∈ all, ∃ e : Event, entry.Shows n s e)
    (hCount : 0 < count) :
    (all.filter fun entry =>
          Level.startsWith (subscriptionStart subscription)
            entry.key).take count
        = (all.filter fun entry =>
            entry.subscription? = some subscription).take count
      ↔ ':' ∉ subscription.toList
        ∨ ∀ entry ∈ all,
          ¬ Level.startsWith (subscriptionStart subscription)
            entry.key := by
  have hPlainly :
      ':' ∉ subscription.toList →
        (all.filter fun entry =>
            Level.startsWith (subscriptionStart subscription)
              entry.key)
          = all.filter fun entry =>
            entry.subscription? = some subscription := by
    intro hPlain
    apply List.filter_congr
    intro entry hMem
    rcases hShows entry hMem with ⟨e, hEvent⟩
    rw [Bool.eq_iff_iff, hEvent.startsWith_iff hPlain,
      decide_eq_true_eq]
  have hNoneOwn :
      ':' ∈ subscription.toList →
        (all.filter fun entry =>
            entry.subscription? = some subscription)
          = [] := by
    intro hColon
    apply List.filter_eq_nil_iff.mpr
    intro entry hMem
    rcases hShows entry hMem with ⟨e, hEvent⟩
    rw [decide_eq_true_eq]
    exact hEvent.subscription?_ne hColon
  constructor
  · intro hSame
    by_cases hColon : ':' ∈ subscription.toList
    · rw [hNoneOwn hColon, List.take_nil,
        List.take_eq_nil_iff] at hSame
      exact .inr
        (List.filter_eq_nil_iff.mp
          (hSame.resolve_left hCount.ne'))
    · exact .inl hColon
  · rintro (hPlain | hNone)
    · rw [hPlainly hPlain]
    · by_cases hColon : ':' ∈ subscription.toList
      · rw [hNoneOwn hColon, List.filter_eq_nil_iff.mpr hNone]
      · rw [hPlainly hColon]

/-
  In every state of a history of storable events a list of a
  namespace is taken from all of its entries, in ascending
  order of the bytes of their keys, each of which shows the
  event of its record. Without a subscription it is the first
  of them. With a subscription it is the first whose keys
  begin with that one and a colon. These are the first whose
  messages name it if and only if it has no colon, or no key
  of the namespace begins so; no message names a subscription
  with a colon.
-/
theorem listPending_own_iff
    {expiry : Nat}
    {tags : TagSource}
    {m : Matcher}
    (hReachable :
      Matcher.Reachable Event.Storable expiry tags m)
    (n : Namespace) :
    ∃ all : List PendingEntry,
      all.map PendingEntry.key = (Pending.level n m.store).keys
        ∧ (all.map PendingEntry.key).Pairwise
          (fun first second => utf8 first < utf8 second)
        ∧ (∀ entry ∈ all,
          ∃ e : Event, e.Storable ∧ entry.Shows n m.store e)
        ∧ (∀ limit,
          listPending n none limit m.store
            = .ok (all.take (clampLimit limit)))
        ∧ (∀ subscription limit,
          listPending n (some subscription) limit m.store
            = .ok
              ((all.filter fun entry =>
                  Level.startsWith
                    (subscriptionStart subscription)
                    entry.key).take
                (clampLimit limit)))
        ∧ (∀ subscription : String,
          ':' ∈ subscription.toList →
            ∀ entry ∈ all,
              entry.subscription? ≠ some subscription)
        ∧ ∀ subscription limit,
          (listPending n (some subscription) limit m.store
              = .ok
                ((all.filter fun entry =>
                    entry.subscription? = some subscription).take
                  (clampLimit limit))
            ↔ ':' ∉ subscription.toList
              ∨ ∀ entry ∈ all,
                ¬ Level.startsWith
                    (subscriptionStart subscription)
                    entry.key) := by
  rcases exists_pending hReachable.authored n with
    ⟨all, hPending, hEntries⟩
  have hKeys := keys_pending hPending
  have hShows :
      ∀ entry ∈ all, ∃ e : Event, entry.Shows n m.store e := by
    intro entry hMem
    rcases hEntries entry hMem with ⟨e, -, hEvent⟩
    exact ⟨e, hEvent⟩
  refine
    ⟨all, hKeys, ?_, hEntries, ?_,
      fun subscription => listPending_eq hPending subscription,
      ?_, ?_⟩
  · rw [hKeys]
    apply List.pairwise_map.mpr
    apply (Pending.level n m.store).ascending.imp
    intro first second hLess
    exact utf8_lt_iff.mpr hLess
  · intro limit
    rw [listPending_eq hPending, List.filter_eq_self.mpr]
    intro entry _
    rfl
  · intro subscription hColon entry hMem
    rcases hShows entry hMem with ⟨e, hEvent⟩
    exact hEvent.subscription?_ne hColon
  · intro subscription limit
    rw [listPending_eq hPending, Except.ok.injEq]
    exact take_picked_eq_iff hShows (clampLimit_pos limit)

/- A relay of the subscription `journeys` waits. -/
def seenListed : Matcher :=
  (Matcher.begin 1000 .counted .empty).move
    (.event (.still ⟨0⟩) (.relayed seenRelay))

theorem reachable_seenListed :
    Matcher.Reachable Event.Storable 1000 .counted seenListed :=
  .step (.event (.still ⟨0⟩) (.relayed seenRelay)) .start
    Event.storable_seenRelay

theorem keys_seenListed :
    (Pending.level .relayed seenListed.store).keys
      = [Matcher.seenKey] :=
  rfl

theorem listPending_own_iff_seenListed :
    Matcher.Reachable Event.Storable 1000 .counted seenListed
      ∧ ∃ entry : PendingEntry,
        entry.key = Matcher.seenKey
          ∧ listPending .relayed none 0 seenListed.store
            = .ok [entry] := by
  refine ⟨reachable_seenListed, ?_⟩
  rcases listPending_own_iff reachable_seenListed .relayed with
    ⟨all, hKeys, -, -, hFirst, -⟩
  rw [keys_seenListed] at hKeys
  rcases List.map_eq_singleton_iff.mp hKeys with
    ⟨entry, hAll, hKey⟩
  refine ⟨entry, hKey, ?_⟩
  rw [hFirst, hAll]
  rfl

/-
  The subscription of the key, a colon, and the digest of the
  message: the key goes on behind it with a colon.
-/
def seenFront : String :=
  "journeys:" ++ identityDigest "0x01"

theorem startsWith_seenFront :
    Level.startsWith (subscriptionStart seenFront)
        Matcher.seenKey
      = true :=
  Level.startsWith_iff.mpr
    ⟨"target".toList, by
      simp [subscriptionStart, seenFront, Matcher.seenKey,
        pendingKey, correlationKey]⟩

/-
  So a list that is asked for one subscription shows an entry
  of another one.
-/
theorem seenListed_other :
    Matcher.Reachable Event.Storable 1000 .counted seenListed
      ∧ ∃ entry : PendingEntry,
        pending .relayed seenListed.store = .ok [entry]
          ∧ entry.subscription? = some "journeys"
          ∧ entry.subscription? ≠ some seenFront
          ∧ listPending .relayed (some seenFront) 20
              seenListed.store
            = .ok [entry]
          ∧ listPending .relayed (some seenFront) 20
              seenListed.store
            ≠ .ok
              (([entry].filter fun other =>
                  other.subscription? = some seenFront).take
                (clampLimit 20)) := by
  refine ⟨reachable_seenListed, ?_⟩
  rcases exists_pending reachable_seenListed.authored .relayed
    with ⟨all, hPending, hShows⟩
  have hKeys := keys_pending hPending
  rw [keys_seenListed] at hKeys
  rcases List.map_eq_singleton_iff.mp hKeys with
    ⟨entry, rfl, hKey⟩
  rcases hShows entry List.mem_cons_self with ⟨e, -, hEvent⟩
  have hColon : ':' ∈ seenFront.toList := by
    simp [seenFront]
  have hOther := hEvent.subscription?_ne hColon
  have hOwn : entry.subscription? = some "journeys" := by
    rw [← hEvent.startsWith_iff (by decide), hKey]
    exact (Event.startsWith_key Matcher.key_seenRelay).2
  have hList :
      listPending .relayed (some seenFront) 20 seenListed.store
        = .ok [entry] := by
    rw [listPending_eq hPending, List.filter_eq_self.mpr]
    · rfl
    · intro other hMem
      rw [List.mem_singleton.mp hMem, hKey]
      exact startsWith_seenFront
  refine ⟨entry, hPending, hOwn, hOther, hList, ?_⟩
  rw [hList]
  simp [hOther]

end Admin

end JourneyMatch

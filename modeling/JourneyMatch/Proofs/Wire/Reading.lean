import JourneyMatch.Proofs.Json.Blank
import JourneyMatch.Proofs.Json.Reading
import JourneyMatch.Wire.Basic

/-
  This file says what reading makes of a printed value of a
  shape. Values of a shape are printed as JSON, and read as
  values of the shape again: texts, truth values and integers
  as they were, and values without a shape as their JSON is.

  Key definitions include:
    * `Shape.json`
    * `Shape.wellNamed`
    * `Shape.reread`

  Main statements:
    * `Shape.write_json`
    * `Shape.reads`
-/

namespace JourneyMatch

------------------------------------------------------------
-- Values of a shape as JSON
------------------------------------------------------------

mutual

/- The JSON that a value of a shape is printed as. -/
def Shape.json :
    (shape : Shape) → shape.Carrier → Json
  | .text, x => .string x
  | .flag, x => .bool x
  | .word32, x => .number (.integer x.toNat)
  | .word64, x => .number (.integer x.toNat)
  | .signed64, x => .number (.integer x.toInt)
  | .oneOf names, x => .string (names.get x)
  | .free, x => x
  | .list item, x => .array (x.map item.json)
  | .optional _, none => .null
  | .optional inner, some x => inner.json x
  | .record fields, x => .object (fields.json x)

/- The members that are printed for fields. -/
def Fields.json :
    (fields : Fields) → fields.Carrier → List (String × Json)
  | .nil, _ => []
  | .cons name shape _ rest, (x, xs) =>
      if shape.omits x then
        rest.json xs
      else
        (name, shape.json x) :: rest.json xs

end

theorem writeItems_map
    {α : Type}
    {item : α → Json}
    {text : α → List Char}
    (hItem : ∀ x, (item x).write = text x)
    (xs : List α) :
    Json.writeItems (xs.map item) = xs.map text := by
  induction xs with
  | nil => rfl
  | cons x xs ih =>
      rw [List.map_cons, Json.writeItems, hItem, ih,
        List.map_cons]

mutual

/- A value of a shape is printed as its JSON. -/
theorem Shape.write_json :
    (shape : Shape) →
    (x : shape.Carrier) →
    (shape.json x).write = shape.write x
  | .text, _ => rfl
  | .flag, _ => rfl
  | .word32, _ => rfl
  | .word64, _ => rfl
  | .signed64, _ => rfl
  | .oneOf _, _ => rfl
  | .free, _ => rfl
  | .list item, x => by
      rw [Shape.json, Json.write, Shape.write]
      rw [writeItems_map (Shape.write_json item) x]
  | .optional _, none => rfl
  | .optional inner, some x => Shape.write_json inner x
  | .record fields, x => by
      rw [Shape.json, Json.write, Shape.write,
        Fields.write_json fields x]

theorem Fields.write_json :
    (fields : Fields) →
    (x : fields.Carrier) →
    Json.writeMembers (fields.json x) = fields.write x
  | .nil, _ => rfl
  | .cons name shape _ rest, (x, xs) => by
      rw [Fields.json, Fields.write]
      split
      · exact Fields.write_json rest xs
      · rw [Json.writeMembers, Shape.write_json shape x,
          Fields.write_json rest xs]

end

theorem Shape.beginsValue_write
    (shape : Shape)
    (x : shape.Carrier) :
    BeginsValue (shape.write x) := by
  rw [← shape.write_json x]
  exact (shape.json x).beginsValue_write

------------------------------------------------------------
-- What reading makes of a value
------------------------------------------------------------

mutual

/- Whether no object of a shape has two fields of one name. -/
def Shape.wellNamed :
    Shape → Bool
  | .list item => item.wellNamed
  | .optional inner => inner.wellNamed
  | .record fields => fields.wellNamed
  | .text => true
  | .flag => true
  | .word32 => true
  | .word64 => true
  | .signed64 => true
  | .oneOf _ => true
  | .free => true

/- Whether the names of fields differ. -/
def Fields.wellNamed :
    Fields → Bool
  | .nil => true
  | .cons name shape _ rest =>
      decide (name ∉ rest.names)
        && shape.wellNamed
        && rest.wellNamed

end

mutual

/-
  What reading makes of a printed value of a shape, with at
  most the given number of arrays and objects around its
  deepest part.
-/
def Shape.reread :
    (shape : Shape) →
    Nat →
    shape.Carrier →
    Except ReadError shape.Carrier
  | .text, _, x => .ok x
  | .flag, _, x => .ok x
  | .word32, _, x => .ok x
  | .word64, _, x => .ok x
  | .signed64, _, x => .ok x
  | .oneOf names, _, x => fromMismatch (variant? names (names.get x))
  | .free, depth, x => (x.reread depth).map Json.settle
  | .list _, 0, _ => .error (.malformed .tooDeep)
  | .list item, depth + 1, xs =>
      inOrder (xs.map (item.reread depth))
  | .optional _, _, none => .ok none
  | .optional inner, depth, some x =>
      if inner.write x = nullText then
        .ok none
      else
        (inner.reread depth x).map some
  | .record _, 0, _ => .error (.malformed .tooDeep)
  | .record fields, depth + 1, x => do
      let slots ← fields.rereadSlots depth x
      fromMismatch (fields.close slots)

/- What reading makes of the fields that are printed. -/
def Fields.rereadSlots :
    (fields : Fields) →
    Nat →
    fields.Carrier →
    Except ReadError fields.Slots
  | .nil, _, _ => .ok ()
  | .cons _ shape _ rest, depth, (x, xs) =>
      if shape.omits x then do
        let slots ← rest.rereadSlots depth xs
        .ok (none, slots)
      else do
        let y ← shape.reread depth x
        let slots ← rest.rereadSlots depth xs
        .ok (some y, slots)

end

------------------------------------------------------------
-- Values of simple shapes
------------------------------------------------------------

theorem reads_readText
    (x : String) :
    Reads readText (Quoted.write x) (.ok x) := by
  intro rest hRest
  have hFront : isBlank '"' = false := by decide
  rw [Quoted.write, List.cons_append, List.append_assoc,
    readText, skipBlanks_cons hFront]
  simp only [List.cons_append, List.nil_append,
    Quoted.read_encode, Except.map]

theorem reads_readFlag
    (x : Bool) :
    Reads readFlag (boolText x) (.ok x) := by
  intro rest hRest
  cases x <;> rfl

/- An integer of the kept range is converted as it was. -/
theorem reads_readNumberAs
    {α : Type}
    (convert : Number → Except Mismatch α)
    {value : Int}
    (hRange : InIntegerRange value) :
    Reads (readNumberAs convert) (integerText value)
      (fromMismatch (convert (.integer value))) := by
  intro rest hRest
  rcases readNumber_integerText hRange with
    ⟨-, hText, hRead⟩ | ⟨hText, hRead⟩
  · have hDigits := wholeDigits_toDigits value.toNat
    have hNumber := hRead rest hRest
    rw [hText]
    cases hCase : Nat.toDigits 10 value.toNat with
    | nil => exact absurd hCase hDigits.nonempty
    | cons c tail =>
        have hDigit : isDigit c = true :=
          hDigits.digit c (by rw [hCase]; simp)
        rcases Json.beginsValue_digit tail hDigit with
          ⟨front, others, hFront, hBlank, -⟩
        cases hFront
        rw [hCase] at hNumber
        rw [List.cons_append] at hNumber ⊢
        unfold readNumberAs
        rw [skipBlanks_cons hBlank]
        split
        · rename_i hNone
          cases hNone
        · rename_i hSign
          cases hSign
          exact absurd hDigit (by decide)
        · rename_i hOther
          cases hOther
          rw [if_pos hDigit, hNumber]
          cases hValue : convert (.integer value) <;>
            simp [bind, Except.bind, hValue, fromMismatch,
              Except.map]
  · have hNumber := hRead rest hRest
    have hFront : isBlank '-' = false := by decide
    rw [hText, List.cons_append, readNumberAs,
      skipBlanks_cons hFront]
    cases hValue : convert (.integer value) <;>
      simp [bind, Except.bind, hNumber, hValue, fromMismatch,
        Except.map]

/- The integers of each width are in the kept range. -/
theorem inIntegerRange_word32
    (x : UInt32) :
    InIntegerRange (x.toNat : Int) := by
  have hBound := x.toNat_lt
  have hHigh : greatestWord = 18446744073709551615 := by decide
  have hSigned : twoTo 63 = 9223372036854775808 := by decide
  constructor <;> omega

theorem inIntegerRange_word64
    (x : UInt64) :
    InIntegerRange (x.toNat : Int) := by
  have hBound := x.toNat_lt
  have hHigh : greatestWord = 18446744073709551615 := by decide
  have hSigned : twoTo 63 = 9223372036854775808 := by decide
  constructor <;> omega

theorem inIntegerRange_signed64
    (x : Int64) :
    InIntegerRange x.toInt := by
  have hLeast := x.le_toInt
  have hBound := x.toInt_lt
  have hHigh : greatestWord = 18446744073709551615 := by decide
  have hSigned : twoTo 63 = 9223372036854775808 := by decide
  constructor <;> omega

/- An integer of a width is converted to itself. -/
theorem Number.toWord32_toNat
    (x : UInt32) :
    (Number.integer (x.toNat : Int)).toWord32 = .ok x := by
  have hBound := x.toNat_lt
  have hLow : twoTo 32 = 4294967296 := by decide
  simp only [Number.toWord32, Number.between]
  rw [if_pos (by omega)]
  simp [Except.map]

theorem Number.toWord64_toNat
    (x : UInt64) :
    (Number.integer (x.toNat : Int)).toWord64 = .ok x := by
  have hBound := x.toNat_lt
  have hLow : twoTo 64 = 18446744073709551616 := by decide
  simp only [Number.toWord64, Number.between]
  rw [if_pos (by omega)]
  simp [Except.map]

theorem Number.toSigned64_toInt
    (x : Int64) :
    (Number.integer x.toInt).toSigned64 = .ok x := by
  have hLeast := x.le_toInt
  have hBound := x.toInt_lt
  have hSigned : twoTo 63 = 9223372036854775808 := by decide
  simp only [Number.toSigned64, Number.between]
  rw [if_pos (by omega)]
  simp [Except.map]

theorem reads_word32
    (x : UInt32) :
    Reads (readNumberAs Number.toWord32) (integerText x.toNat)
      (.ok x) := by
  have hReads :=
    reads_readNumberAs Number.toWord32 (inIntegerRange_word32 x)
  rwa [Number.toWord32_toNat] at hReads

theorem reads_word64
    (x : UInt64) :
    Reads (readNumberAs Number.toWord64) (integerText x.toNat)
      (.ok x) := by
  have hReads :=
    reads_readNumberAs Number.toWord64 (inIntegerRange_word64 x)
  rwa [Number.toWord64_toNat] at hReads

theorem reads_signed64
    (x : Int64) :
    Reads (readNumberAs Number.toSigned64) (integerText x.toInt)
      (.ok x) := by
  have hReads :=
    reads_readNumberAs Number.toSigned64
      (inIntegerRange_signed64 x)
  rwa [Number.toSigned64_toInt] at hReads

theorem reads_readVariant
    (names : List String)
    (depth : Nat)
    (x : Fin names.length) :
    Reads (readVariant names depth) (Quoted.write (names.get x))
      (fromMismatch (variant? names (names.get x))) := by
  intro rest hRest
  have hText := reads_readText (names.get x) rest hRest
  have hFront : isBlank '"' = false := by decide
  rw [Quoted.write, List.cons_append] at hText ⊢
  rw [readVariant, skipBlanks_cons hFront]
  simp only [readVariantName, hText, bind, Except.bind,
    Except.map]
  cases variant? names (names.get x) <;> rfl

------------------------------------------------------------
-- Fields
------------------------------------------------------------

/- A member of an object that has one more field in front. -/
def Entry.behind
    {α σ : Type}
    (e : Entry σ) : Entry (α × σ) :=
  { key := e.key
    text := e.text
    effect := fun state =>
      (e.effect state.2).map fun after => (state.1, after) }

theorem Entry.run_behind
    {α σ : Type}
    (entries : List (Entry σ))
    (x : α)
    (state : σ) :
    run (entries.map behind) (x, state)
      = (run entries state).map fun after => (x, after) := by
  induction entries generalizing state with
  | nil => rfl
  | cons e entries ih =>
      rw [List.map_cons, run, run]
      simp only [behind, bind, Except.bind]
      cases e.effect state with
      | error cause => rfl
      | ok after => exact ih after

/- The printed members of fields, with their effects. -/
def Fields.entries :
    (fields : Fields) →
    Nat →
    fields.Carrier →
    List (Entry fields.Slots)
  | .nil, _, _ => []
  | .cons name shape _ rest, depth, (x, xs) =>
      if shape.omits x then
        (rest.entries depth xs).map Entry.behind
      else
        { key := name
          text := shape.write x
          effect := fun (slot, slots) =>
            if slot.isSome then
              .error (.mismatch (.duplicateField name))
            else
              (shape.reread depth x).map
                fun y => (some y, slots) }
          :: (rest.entries depth xs).map Entry.behind

theorem Fields.entries_printed :
    (fields : Fields) →
    (depth : Nat) →
    (x : fields.Carrier) →
    (fields.entries depth x).map Entry.printed
      = fields.write x
  | .nil, _, _ => rfl
  | .cons name shape absence rest, depth, (x, xs) => by
      have hRest :
          ((rest.entries depth xs).map
              (Entry.behind (α := Option shape.Carrier))).map
                Entry.printed
            = rest.write xs := by
        rw [List.map_map,
          ← Fields.entries_printed rest depth xs]
        rfl
      rw [entries, write]
      split
      · exact hRest
      · rw [List.map_cons, hRest]
        rfl

/- Running the members fills the slots of the fields. -/
theorem Fields.entries_run :
    (fields : Fields) →
    (depth : Nat) →
    (x : fields.Carrier) →
    Entry.run (fields.entries depth x) fields.noSlots
      = fields.rereadSlots depth x
  | .nil, _, _ => rfl
  | .cons name shape absence rest, depth, (x, xs) => by
      have hRest := Fields.entries_run rest depth xs
      rw [entries, rereadSlots, noSlots]
      split
      · rw [Entry.run_behind, hRest]
        cases rest.rereadSlots depth xs <;> rfl
      · rw [Entry.run]
        simp only [Option.isSome_none, Bool.false_eq_true,
          if_false, bind, Except.bind]
        cases shape.reread depth x with
        | error cause => rfl
        | ok y =>
            simp only [Except.map]
            rw [Entry.run_behind, hRest]
            cases rest.rereadSlots depth xs <;> rfl

theorem Fields.key_mem_names :
    (fields : Fields) →
    (depth : Nat) →
    (x : fields.Carrier) →
    ∀ e ∈ fields.entries depth x, e.key ∈ fields.names
  | .nil, _, _ => by
      intro e hMem
      cases hMem
  | .cons name shape absence rest, depth, (x, xs) => by
      intro e hMem
      have hBehind :
          ∀ d ∈ (rest.entries depth xs).map Entry.behind,
            d = e → e.key ∈ rest.names := by
        intro d hIn hEq
        rcases List.mem_map.mp hIn with ⟨f, hFound, hLift⟩
        rw [← hEq, ← hLift]
        exact Fields.key_mem_names rest depth xs f hFound
      rw [names]
      rw [entries] at hMem
      split at hMem
      · exact List.mem_cons_of_mem name (hBehind e hMem rfl)
      · rcases List.mem_cons.mp hMem with hHere | hThere
        · rw [hHere]
          exact List.mem_cons_self
        · exact List.mem_cons_of_mem name
            (hBehind e hThere rfl)

/-
  An object is read up to its closing brace if its members
  are, so that anything may follow it.
-/
theorem Fields.read_braced
    {fields : Fields}
    {depth : Nat}
    {x : fields.Carrier}
    (hMember :
      ∀ e ∈ fields.entries depth x, ∀ slots,
        Reads (fields.readMember depth e.key slots)
          (':' :: e.text) (e.effect slots))
    (rest : List Char) :
    (Shape.record fields).read (depth + 1)
        ((Shape.record fields).write x ++ rest)
      = ((Shape.record fields).reread (depth + 1) x).map
        fun y => (y, rest) := by
  have hFront : isBlank '{' = false := by decide
  have hMembers :=
    readMembers_braced hMember fields.noSlots rest
  rw [fields.entries_printed, fields.entries_run]
    at hMembers
  rw [Shape.write, braced, List.cons_append,
    List.append_assoc, Shape.read]
  simp only [skipBlanks_cons hFront, List.cons_append,
    List.nil_append, hMembers, bind, Except.bind,
    Shape.reread]
  cases fields.rereadSlots depth x with
  | error cause => rfl
  | ok slots =>
      cases hClose : fromMismatch (fields.close slots) <;>
        simp [Except.map, hClose]

------------------------------------------------------------
-- Reading printed values
------------------------------------------------------------

mutual

/-
  A printed value of a shape is read as `reread` says,
  whatever follows it.
-/
theorem Shape.reads :
    (shape : Shape) →
    shape.wellNamed = true →
    (depth : Nat) →
    (x : shape.Carrier) →
    Reads (shape.read depth) (shape.write x)
      (shape.reread depth x)
  | .text, _, _, x => reads_readText x
  | .flag, _, _, x => reads_readFlag x
  | .word32, _, _, x => reads_word32 x
  | .word64, _, _, x => reads_word64 x
  | .signed64, _, _, x => reads_signed64 x
  | .oneOf names, _, depth, x => reads_readVariant names depth x
  | .free, _, depth, x => by
      intro rest hRest
      rw [Shape.read, Shape.write]
      simp only [Json.reads x depth rest hRest, bind,
        Except.bind, Shape.reread]
      cases x.reread depth <;> rfl
  | .list item, _, 0, xs => by
      intro rest hRest
      have hFront : isBlank '[' = false := by decide
      rw [Shape.write, bracketed, List.cons_append, Shape.read]
      simp only [skipBlanks_cons hFront]
      rfl
  | .list item, hNames, depth + 1, xs => by
      intro rest hRest
      have hFront : isBlank '[' = false := by decide
      have hItem := Shape.reads item hNames depth
      have hPieces :
          ∀ p ∈ xs.map fun x =>
              (⟨item.write x, item.reread depth x⟩ :
                Piece item.Carrier),
            BeginsValue p.text
              ∧ Reads (item.read depth) p.text p.result := by
        intro p hMem
        rcases List.mem_map.mp hMem with ⟨x, -, hPiece⟩
        subst hPiece
        exact ⟨item.beginsValue_write x, hItem x⟩
      have hItems := readItems_bracketed hPieces rest
      rw [List.map_map, List.map_map] at hItems
      rw [Shape.write, bracketed, List.cons_append,
        List.append_assoc, Shape.read]
      simp only [skipBlanks_cons hFront]
      exact hItems
  | .optional inner, _, depth, none => by
      intro rest hRest
      rfl
  | .optional inner, hNames, depth, some x => by
      intro rest hRest
      have hInner := Shape.reads inner hNames depth x rest hRest
      have hBegins := inner.beginsValue_write x
      rw [Shape.write, Shape.read, Shape.reread]
      simp only [hBegins.skipBlanks_append rest]
      split
      · rename_i text tail hText
        rcases hBegins with ⟨c, others, hWrite, -⟩
        have hNull : inner.write x = nullText := by
          rw [← inner.write_json x]
          have hStart : (inner.json x).write = 'n' :: others := by
            rw [inner.write_json x, hWrite]
            rw [hWrite] at hText
            cases hText
            rfl
          rw [Json.eq_null_of_write hStart]
          rfl
        rw [if_pos hNull]
        rw [hNull] at hText
        cases hText
        rfl
      · rename_i text hText
        have hOther : inner.write x ≠ nullText := by
          intro hNull
          rw [hNull] at hText
          exact hText _ rfl
        rw [if_neg hOther]
        simp only [bind, Except.bind, hInner]
        cases inner.reread depth x <;> rfl
  | .record fields, _, 0, x => by
      intro rest hRest
      have hFront : isBlank '{' = false := by decide
      rw [Shape.write, braced, List.cons_append, Shape.read]
      simp only [skipBlanks_cons hFront]
      rfl
  | .record fields, hNames, depth + 1, x => fun rest _ =>
      Fields.read_braced
        (Fields.readsMember fields hNames depth x) rest

/- Each printed member is read into the slot of its field. -/
theorem Fields.readsMember :
    (fields : Fields) →
    fields.wellNamed = true →
    (depth : Nat) →
    (x : fields.Carrier) →
    ∀ e ∈ fields.entries depth x, ∀ slots,
      Reads (fields.readMember depth e.key slots)
        (':' :: e.text) (e.effect slots)
  | .nil, _, _, _ => by
      intro e hMem
      cases hMem
  | .cons name shape absence rest, hNames, depth, (x, xs) => by
      intro e hMem slots
      rw [Fields.wellNamed, Bool.and_eq_true,
        Bool.and_eq_true, decide_eq_true_eq] at hNames
      rcases hNames with ⟨⟨hFresh, hShape⟩, hRest⟩
      have hBehind :
          ∀ d ∈ rest.entries depth xs,
            e = d.behind →
              Reads
                (Fields.readMember (.cons name shape absence rest)
                  depth e.key slots)
                (':' :: e.text) (e.effect slots) := by
        intro d hIn hLift after hAfter
        have hKey : ¬ d.key = name := by
          intro hEq
          exact hFresh
            (hEq ▸ Fields.key_mem_names rest depth xs d hIn)
        have hMember :=
          Fields.readsMember rest hRest depth xs d hIn slots.2
            after hAfter
        subst hLift
        simp only [Entry.behind, Fields.readMember, hKey,
          if_false, hMember, bind, Except.bind]
        cases d.effect slots.2 <;> rfl
      rw [Fields.entries] at hMem
      split at hMem
      · rcases List.mem_map.mp hMem with ⟨d, hIn, hLift⟩
        exact hBehind d hIn hLift.symm
      · rcases List.mem_cons.mp hMem with hHere | hThere
        · subst hHere
          intro after hAfter
          have hValue := Shape.reads shape hShape depth x after
            hAfter
          rcases slots with ⟨slot, slots⟩
          cases slot with
          | some y => simp [Fields.readMember, Except.map]
          | none =>
              simp only [Fields.readMember, if_true,
                Option.isSome_none, Bool.false_eq_true,
                if_false, List.cons_append, readColon_colon,
                hValue, bind, Except.bind]
              cases shape.reread depth x <;> rfl
        · rcases List.mem_map.mp hThere with ⟨d, hIn, hLift⟩
          exact hBehind d hIn hLift.symm

end

------------------------------------------------------------
-- Whole texts
------------------------------------------------------------

/- A reader of a whole text that has a fixed result. -/
theorem readWhole?_of_reads
    {α : Type}
    {reader : Reader α}
    {text : List Char}
    {result : Except ReadError α}
    (hReads : Reads reader text result) :
    readWhole? reader (String.ofList text) = result := by
  have hRead := hReads [] Delimited.nil
  rw [List.append_nil] at hRead
  rw [readWhole?, String.toList_ofList, hRead]
  cases result <;> rfl

/- Blanks may follow an object. -/
theorem Shape.parse_record
    {fields : Fields}
    {blanks : List Char}
    (hNames : fields.wellNamed = true)
    (x : fields.Carrier)
    (hBlanks : Blanks blanks) :
    (Shape.record fields).parse
        (String.ofList ((Shape.record fields).write x ++ blanks))
      = (Shape.record fields).reread greatestDepth x := by
  have hDepth : greatestDepth = 126 + 1 := rfl
  rw [parse, readWhole?, String.toList_ofList, hDepth,
    Fields.read_braced (Fields.readsMember fields hNames 126 x)]
  cases (Shape.record fields).reread (126 + 1) x with
  | error cause => rfl
  | ok y =>
      simp only [Except.map, bind, Except.bind,
        readEnd_eq_ok_iff.mpr hBlanks]

namespace Wire

/- What reading makes of a printed value of a type. -/
def reread
    {α : Type}
    [Wire α]
    (depth : Nat)
    (x : α) : Except ReadError α :=
  ((shape α).reread depth (pack x)).map unpack

/- The JSON that a value of a type is printed as. -/
def json
    {α : Type}
    [Wire α]
    (x : α) : Json :=
  (shape α).json (pack x)

/- Reading the text of a value. -/
theorem parse_text
    {α : Type}
    [Wire α]
    (hNames : (shape α).wellNamed = true)
    (x : α) :
    parse α (text x) = reread greatestDepth x := by
  unfold parse text reread Shape.parse
  rw [readWhole?_of_reads
    ((shape α).reads hNames greatestDepth (pack x))]

end Wire

end JourneyMatch

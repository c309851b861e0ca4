import JourneyMatch.Proofs.Json.Printed

/-
  This file says what reading makes of a printed JSON value:
  the same value, with its numbers read again, or an error
  where it is nested too deeply or a number is too large. A
  value that nobody asks for is passed over in any case.

  Key definitions include:
    * `Number.reread`
    * `Json.reread`

  Main statements:
    * `Json.reads`
    * `Json.skips`
    * `Json.skipValue_write`
-/

namespace JourneyMatch

------------------------------------------------------------
-- Numbers
------------------------------------------------------------

/- What reading makes of a printed number. -/
def Number.reread
    (x : Number) : Except ReadError Number :=
  match x.text with
  | '-' :: digits => (readNumber true digits).map Prod.fst
  | digits => (readNumber false digits).map Prod.fst

theorem digit_ne
    {c d : Char}
    (hDigit : isDigit c = true)
    (hOther : isDigit d = false) :
    c ≠ d := by
  intro hEq
  rw [hEq, hOther] at hDigit
  cases hDigit

/- A literal is read as a number, and passed over as one. -/
theorem IsLiteral.reads
    {text : List Char}
    (hLiteral : IsLiteral text)
    (negative : Bool) :
    Reads (readNumber negative) text
        ((readNumber negative text).map Prod.fst)
      ∧ Reads skipNumber text (.ok ()) := by
  rcases hLiteral with ⟨-, literal, hRead⟩
  have hAlone := hRead negative [] Delimited.nil
  rw [List.append_nil] at hAlone
  constructor
  · intro rest hRest
    simp only [readNumber, hRead negative rest hRest, hAlone,
      bind, Except.bind]
    cases (literal negative).number? <;> rfl
  · intro rest hRest
    simp only [skipNumber, hRead false rest hRest, Except.map]

/-
  A number is printed with a digit in front, or with a sign
  and a literal.
-/
theorem Number.text_cases
    (x : Number) :
    (∃ c tail,
        x.text = c :: tail
          ∧ isDigit c = true
          ∧ Reads (readNumber false) x.text x.reread
          ∧ Reads skipNumber x.text (.ok ()))
      ∨ ∃ tail,
        x.text = '-' :: tail
          ∧ Reads (readNumber true) tail x.reread
          ∧ Reads skipNumber tail (.ok ()) := by
  rcases x.exists_literal with ⟨text, hLiteral, hText⟩
  have hHead := hLiteral.1
  rcases hText with hPlain | hSigned
  · left
    rcases hHead with ⟨c, hFront, hDigit⟩
    cases text with
    | nil => cases hFront
    | cons d tail =>
        cases hFront
        have hSign : c ≠ '-' := digit_ne hDigit (by decide)
        have hReread :
            x.reread
              = (readNumber false (c :: tail)).map Prod.fst := by
          unfold reread
          rw [hPlain]
          split
          · rename_i hCase
            cases hCase
            exact absurd rfl hSign
          · rfl
        rw [hReread, hPlain]
        have hReads := hLiteral.reads false
        exact ⟨c, tail, rfl, hDigit, hReads.1, hReads.2⟩
  · right
    have hReread :
        x.reread = (readNumber true text).map Prod.fst := by
      unfold reread
      rw [hSigned]
      rfl
    rw [hReread]
    have hReads := hLiteral.reads true
    exact ⟨text, hSigned, hReads.1, hReads.2⟩

/- An integer of the kept range is read as itself. -/
theorem Number.reread_integer
    {value : Int}
    (hRange : InIntegerRange value) :
    (Number.integer value).reread = .ok (.integer value) := by
  rcases readNumber_integerText hRange with
    ⟨-, hText, hRead⟩ | ⟨hText, hRead⟩
  · have hAlone := hRead [] Delimited.nil
    rw [List.append_nil] at hAlone
    have hFront := wholeDigits_toDigits value.toNat
    unfold reread
    rw [text, hText]
    split
    · rename_i digits hCase
      have hSign := hFront.digit '-' (by rw [hCase]; simp)
      exact absurd hSign (by decide)
    · rw [hAlone]
      rfl
  · have hAlone := hRead [] Delimited.nil
    rw [List.append_nil] at hAlone
    unfold reread
    rw [text, hText]
    simp only [hAlone, Except.map]

------------------------------------------------------------
-- Values
------------------------------------------------------------

namespace Json

mutual

/-
  What reading makes of a printed value, with at most the
  given number of arrays and objects around its deepest part.
-/
def reread :
    Nat → Json → Except ReadError Json
  | _, .null => .ok .null
  | _, .bool value => .ok (.bool value)
  | _, .number value => value.reread.map .number
  | _, .string value => .ok (.string value)
  | 0, .array _ => .error (.malformed .tooDeep)
  | depth + 1, .array items =>
      (rereadItems depth items).map .array
  | 0, .object _ => .error (.malformed .tooDeep)
  | depth + 1, .object members =>
      (rereadMembers depth members).map .object

/- What reading makes of printed items. -/
def rereadItems :
    Nat → List Json → Except ReadError (List Json)
  | _, [] => .ok []
  | depth, item :: rest => do
      let x ← reread depth item
      let xs ← rereadItems depth rest
      .ok (x :: xs)

/- What reading makes of printed members. -/
def rereadMembers :
    Nat →
    List (String × Json) →
    Except ReadError (List (String × Json))
  | _, [] => .ok []
  | depth, (name, value) :: rest => do
      let x ← reread depth value
      let xs ← rereadMembers depth rest
      .ok ((name, x) :: xs)

end

theorem beginsValue_digit
    {c : Char}
    (tail : List Char)
    (hDigit : isDigit c = true) :
    BeginsValue (c :: tail) := by
  have hBlank : isBlank c = false := by
    cases hCase : isBlank c with
    | false => rfl
    | true =>
        simp only [isBlank, Bool.or_eq_true,
          decide_eq_true_eq] at hCase
        rcases hCase with ((h | h) | h) | h <;>
          subst h <;> exact absurd hDigit (by decide)
  exact ⟨c, tail, rfl, hBlank, digit_ne hDigit (by decide),
    digit_ne hDigit (by decide), digit_ne hDigit (by decide)⟩

/- Every printed value begins as a value does. -/
theorem beginsValue_write
    (j : Json) :
    BeginsValue j.write := by
  cases j with
  | null =>
      exact ⟨'n', _, rfl, by decide, by decide, by decide,
        by decide⟩
  | bool value =>
      cases value with
      | true =>
          exact ⟨'t', _, rfl, by decide, by decide, by decide,
            by decide⟩
      | false =>
          exact ⟨'f', _, rfl, by decide, by decide, by decide,
            by decide⟩
  | number value =>
      rw [write]
      rcases value.text_cases with
        ⟨c, tail, hText, hDigit, -⟩ | ⟨tail, hText, -⟩
      · rw [hText]
        exact beginsValue_digit tail hDigit
      · rw [hText]
        exact ⟨'-', _, rfl, by decide, by decide, by decide,
          by decide⟩
  | string value =>
      exact ⟨'"', _, rfl, by decide, by decide, by decide,
        by decide⟩
  | array items =>
      exact ⟨'[', _, rfl, by decide, by decide, by decide,
        by decide⟩
  | object members =>
      exact ⟨'{', _, rfl, by decide, by decide, by decide,
        by decide⟩

/- Only a null begins with the first letter of its name. -/
theorem eq_null_of_write
    {j : Json}
    {tail : List Char}
    (hText : j.write = 'n' :: tail) :
    j = .null := by
  cases j with
  | null => rfl
  | bool value => cases value <;> cases hText
  | number value =>
      rw [write] at hText
      rcases value.text_cases with
        ⟨c, rest, hDigit, hFront, -⟩ | ⟨rest, hSign, -⟩
      · rw [hDigit] at hText
        cases hText
        exact absurd hFront (by decide)
      · rw [hSign] at hText
        cases hText
  | string value => cases hText
  | array items => cases hText
  | object members => cases hText

/- A value with a digit in front is read as a number. -/
theorem read_digit
    {c : Char}
    (depth : Nat)
    (cs : List Char)
    (hDigit : isDigit c = true) :
    read depth (c :: cs)
      = (do
          let (n, rest) ← readNumber false (c :: cs)
          .ok (.number n, rest)) := by
  rcases beginsValue_digit cs hDigit with
    ⟨front, tail, hText, hBlank, -⟩
  cases hText
  unfold read
  rw [skipBlanks_cons hBlank]
  split
  all_goals rename_i hCase
  all_goals first
    | (cases hCase; exact absurd hDigit (by decide))
    | skip
  · cases hCase
  · cases hCase
    rw [if_pos hDigit]

theorem skipWithin_digit
    {c : Char}
    (fuel : Nat)
    (cs : List Char)
    (hDigit : isDigit c = true) :
    skipWithin fuel (c :: cs) = skipNumber (c :: cs) := by
  rcases beginsValue_digit cs hDigit with
    ⟨front, tail, hText, hBlank, -⟩
  cases hText
  unfold skipWithin
  rw [skipBlanks_cons hBlank]
  split
  all_goals rename_i hCase
  all_goals first
    | (cases hCase; exact absurd hDigit (by decide))
    | skip
  · cases hCase
  · cases hCase
    rw [if_pos hDigit]

------------------------------------------------------------
-- Reading printed values
------------------------------------------------------------

/- The printed items of an array, with their results. -/
def pieces
    (depth : Nat)
    (items : List Json) : List (Piece Json) :=
  items.map fun item => ⟨item.write, item.reread depth⟩

theorem pieces_text
    (depth : Nat)
    (items : List Json) :
    (pieces depth items).map Piece.text = writeItems items := by
  induction items with
  | nil => rfl
  | cons item rest ih =>
      simp only [pieces, List.map_cons, writeItems] at ih ⊢
      rw [ih]

theorem pieces_result
    (depth : Nat)
    (items : List Json) :
    inOrder ((pieces depth items).map Piece.result)
      = rereadItems depth items := by
  induction items with
  | nil => rfl
  | cons item rest ih =>
      simp only [pieces, List.map_cons, inOrder,
        rereadItems] at ih ⊢
      rw [ih]

/- The printed members of an object, with their effects. -/
def entries
    (depth : Nat)
    (members : List (String × Json)) :
    List (Entry (List (String × Json))) :=
  members.map fun (name, value) =>
    { key := name
      text := value.write
      effect := fun before =>
        (value.reread depth).map fun x => (name, x) :: before }

theorem entries_printed
    (depth : Nat)
    (members : List (String × Json)) :
    (entries depth members).map Entry.printed
      = writeMembers members := by
  induction members with
  | nil => rfl
  | cons member rest ih =>
      simp only [entries, List.map_cons, writeMembers,
        Entry.printed] at ih ⊢
      rw [ih]

/- The members come out in the opposite order. -/
theorem entries_run
    (depth : Nat)
    (members before : List (String × Json)) :
    Entry.run (entries depth members) before
      = (rereadMembers depth members).map
        fun xs => xs.reverse ++ before := by
  induction members generalizing before with
  | nil => rfl
  | cons member rest ih =>
      rcases member with ⟨name, value⟩
      change
        (((value.reread depth).map
          fun x => (name, x) :: before) >>=
            Entry.run (entries depth rest)) = _
      rw [rereadMembers]
      cases value.reread depth with
      | error cause => rfl
      | ok x =>
          change
            Entry.run (entries depth rest)
              ((name, x) :: before) = _
          rw [ih]
          cases rereadMembers depth rest with
          | error cause => simp [bind, Except.bind, Except.map]
          | ok xs => simp [bind, Except.bind, Except.map]

theorem reads_pushMember
    {depth : Nat}
    {value : Json}
    (hValue :
      Reads (read depth) value.write (value.reread depth))
    (name : String)
    (before : List (String × Json)) :
    Reads (pushMember (read depth) name before)
      (':' :: value.write)
      ((value.reread depth).map
        fun x => (name, x) :: before) := by
  intro rest hRest
  rw [List.cons_append]
  simp only [pushMember, readColon_colon, bind, Except.bind,
    hValue rest hRest]
  cases value.reread depth <;> rfl

mutual

/-
  A printed value is read as `reread` says, whatever follows
  it.
-/
theorem reads
    (j : Json)
    (depth : Nat) :
    Reads (read depth) j.write (j.reread depth) := by
  cases j with
  | null =>
      intro rest hRest
      cases depth <;> rfl
  | bool value =>
      intro rest hRest
      cases value <;> cases depth <;> rfl
  | number value =>
      intro rest hRest
      rw [write]
      rcases value.text_cases with
        ⟨c, tail, hText, hDigit, hReads, -⟩
          | ⟨tail, hText, hReads, -⟩
      · have hRead := hReads rest hRest
        rw [hText, List.cons_append] at hRead ⊢
        rw [read_digit depth _ hDigit, hRead]
        cases depth <;> simp only [reread] <;>
          cases value.reread <;> rfl
      · have hRead := hReads rest hRest
        have hFront : isBlank '-' = false := by decide
        rw [hText, List.cons_append, read,
          skipBlanks_cons hFront]
        simp only [hRead, bind, Except.bind]
        cases depth <;> simp only [reread] <;>
          cases value.reread <;> rfl
  | string value =>
      intro rest hRest
      have hFront : isBlank '"' = false := by decide
      rw [write, Quoted.write, List.cons_append,
        List.append_assoc, read, skipBlanks_cons hFront]
      simp only [List.cons_append, List.nil_append,
        Quoted.read_encode, bind, Except.bind]
      cases depth <;> rfl
  | array items =>
      intro rest hRest
      have hFront : isBlank '[' = false := by decide
      rw [write, bracketed, List.cons_append,
        List.append_assoc, read, skipBlanks_cons hFront]
      cases depth with
      | zero => rfl
      | succ depth =>
          have hPieces :
              ∀ p ∈ pieces depth items,
                BeginsValue p.text
                  ∧ Reads (read depth) p.text p.result := by
            intro p hMem
            rcases List.mem_map.mp hMem with
              ⟨item, hItem, hPiece⟩
            subst hPiece
            exact ⟨item.beginsValue_write,
              readsItems items item hItem depth⟩
          have hItems := readItems_bracketed hPieces rest
          rw [pieces_text, pieces_result] at hItems
          simp only [List.cons_append, List.nil_append,
            hItems, bind, Except.bind, reread]
          cases rereadItems depth items <;> rfl
  | object members =>
      intro rest hRest
      have hFront : isBlank '{' = false := by decide
      rw [write, braced, List.cons_append,
        List.append_assoc, read, skipBlanks_cons hFront]
      cases depth with
      | zero => rfl
      | succ depth =>
          have hEntries :
              ∀ e ∈ entries depth members, ∀ before,
                Reads (pushMember (read depth) e.key before)
                  (':' :: e.text) (e.effect before) := by
            intro e hMem before
            rcases List.mem_map.mp hMem with
              ⟨⟨name, value⟩, hMember, hEntry⟩
            subst hEntry
            exact reads_pushMember
              (readsMembers members name value hMember depth)
              name before
          have hMembers :=
            readMembers_braced hEntries [] rest
          rw [entries_printed, entries_run] at hMembers
          simp only [List.cons_append, List.nil_append,
            hMembers, bind, Except.bind, reread]
          cases rereadMembers depth members with
          | error cause => rfl
          | ok xs => simp [Except.map]

theorem readsItems
    (items : List Json) :
    ∀ item ∈ items, ∀ depth,
      Reads (read depth) item.write (item.reread depth) := by
  intro item hMem depth
  cases items with
  | nil => cases hMem
  | cons first rest =>
      rcases List.mem_cons.mp hMem with hFirst | hRest
      · rw [hFirst]
        exact reads first depth
      · exact readsItems rest item hRest depth

theorem readsMembers
    (members : List (String × Json)) :
    ∀ name value, (name, value) ∈ members → ∀ depth,
      Reads (read depth) value.write (value.reread depth) := by
  intro name value hMem depth
  cases members with
  | nil => cases hMem
  | cons first rest =>
      rcases first with ⟨firstName, firstValue⟩
      rcases List.mem_cons.mp hMem with hFirst | hRest
      · cases hFirst
        exact reads value depth
      · exact readsMembers rest name value hRest depth

end

------------------------------------------------------------
-- Passing over printed values
------------------------------------------------------------

/- The printed members of an object. -/
theorem writeMembers_eq
    (members : List (String × Json)) :
    writeMembers members
      = (members.map fun p => (p.1, p.2.write)).map
        keyedPair := by
  induction members with
  | nil => rfl
  | cons member rest ih =>
      rw [writeMembers, ih]
      rfl

mutual

/- A printed value is passed over, whatever follows it. -/
theorem skips
    (j : Json)
    {fuel : Nat}
    (hFuel : j.depth ≤ fuel) :
    Reads (skipWithin fuel) j.write (.ok ()) := by
  cases j with
  | null =>
      intro rest hRest
      cases fuel <;> rfl
  | bool value =>
      intro rest hRest
      cases value <;> cases fuel <;> rfl
  | number value =>
      intro rest hRest
      rw [write]
      rcases value.text_cases with
        ⟨c, tail, hText, hDigit, -, hSkips⟩
          | ⟨tail, hText, -, hSkips⟩
      · have hSkip := hSkips rest hRest
        rw [hText, List.cons_append] at hSkip ⊢
        rw [skipWithin_digit fuel _ hDigit, hSkip]
      · have hSkip := hSkips rest hRest
        have hFront : isBlank '-' = false := by decide
        rw [hText, List.cons_append, skipWithin,
          skipBlanks_cons hFront]
        exact hSkip
  | string value =>
      intro rest hRest
      have hFront : isBlank '"' = false := by decide
      rw [write, Quoted.write, List.cons_append,
        List.append_assoc, skipWithin, skipBlanks_cons hFront]
      simp only [List.cons_append, List.nil_append,
        Quoted.skip_encode, Except.map]
  | array items =>
      intro rest hRest
      have hFront : isBlank '[' = false := by decide
      rw [depth] at hFuel
      rcases Nat.exists_eq_succ_of_ne_zero
          (Nat.ne_zero_of_lt (Nat.lt_of_succ_le hFuel)) with
        ⟨fuel, rfl⟩
      have hPieces :
          ∀ p ∈ items.map fun item =>
              (⟨item.write, .ok ()⟩ : Piece Unit),
            BeginsValue p.text
              ∧ Reads (skipWithin fuel) p.text p.result := by
        intro p hMem
        rcases List.mem_map.mp hMem with ⟨item, hItem, hPiece⟩
        subst hPiece
        exact ⟨item.beginsValue_write,
          skipsItems items (Nat.le_of_succ_le_succ hFuel)
            item hItem⟩
      have hText :
          (items.map fun item =>
              (⟨item.write, .ok ()⟩ : Piece Unit)).map Piece.text
            = writeItems items := by
        rw [← pieces_text 0 items, pieces, List.map_map,
          List.map_map]
        rfl
      have hResult :
          ∀ l : List Json,
            ∃ units,
              inOrder
                  ((l.map fun item =>
                    (⟨item.write, .ok ()⟩ : Piece Unit)).map
                      Piece.result)
                = .ok units := by
        intro l
        induction l with
        | nil => exact ⟨[], rfl⟩
        | cons item l ih =>
            rcases ih with ⟨units, hUnits⟩
            refine ⟨() :: units, ?_⟩
            rw [List.map_cons, List.map_cons, inOrder, hUnits]
            rfl
      rcases hResult items with ⟨units, hUnits⟩
      have hItems := readItems_bracketed hPieces rest
      rw [hText, hUnits] at hItems
      rw [write, bracketed, List.cons_append,
        List.append_assoc, skipWithin, skipBlanks_cons hFront]
      simp only [List.cons_append, List.nil_append, hItems,
        bind, Except.bind, Except.map]
  | object members =>
      intro rest hRest
      have hFront : isBlank '{' = false := by decide
      rw [depth] at hFuel
      rcases Nat.exists_eq_succ_of_ne_zero
          (Nat.ne_zero_of_lt (Nat.lt_of_succ_le hFuel)) with
        ⟨fuel, rfl⟩
      have hMembers :
          ∀ p ∈ members.map fun p => (p.1, p.2.write),
            Reads (skipWithin fuel) p.2 (.ok ()) := by
        intro p hMem
        rcases List.mem_map.mp hMem with
          ⟨⟨name, value⟩, hMember, hPair⟩
        subst hPair
        exact skipsMembers members
          (Nat.le_of_succ_le_succ hFuel) name value hMember
      have hLength :=
        length_le_keyedPair
          (members.map fun p => (p.1, p.2.write))
      have hSkip :=
        skipMembers_braced hMembers
          (Nat.lt_succ_of_le
            (Nat.le_trans hLength
              (Nat.le_add_right _ ('}' :: rest).length)))
          rest
      rw [← List.length_append, ← writeMembers_eq] at hSkip
      rw [write, braced, List.cons_append,
        List.append_assoc, skipWithin, skipBlanks_cons hFront]
      exact hSkip

theorem skipsItems
    (items : List Json)
    {fuel : Nat}
    (hFuel : depthItems items ≤ fuel) :
    ∀ item ∈ items,
      Reads (skipWithin fuel) item.write (.ok ()) := by
  intro item hMem
  cases items with
  | nil => cases hMem
  | cons first rest =>
      rw [depthItems, Nat.max_le] at hFuel
      rcases List.mem_cons.mp hMem with hFirst | hRest
      · rw [hFirst]
        exact skips first hFuel.1
      · exact skipsItems rest hFuel.2 item hRest

theorem skipsMembers
    (members : List (String × Json))
    {fuel : Nat}
    (hFuel : depthMembers members ≤ fuel) :
    ∀ name value, (name, value) ∈ members →
      Reads (skipWithin fuel) value.write (.ok ()) := by
  intro name value hMem
  cases members with
  | nil => cases hMem
  | cons first rest =>
      rcases first with ⟨firstName, firstValue⟩
      rw [depthMembers, Nat.max_le] at hFuel
      rcases List.mem_cons.mp hMem with hFirst | hRest
      · cases hFirst
        exact skips value hFuel.1
      · exact skipsMembers rest hFuel.2 name value hRest

end

mutual

/- A value is not nested deeper than its text is long. -/
theorem depth_le_length
    (j : Json) :
    j.depth ≤ j.write.length := by
  cases j with
  | null => exact Nat.zero_le _
  | bool value => exact Nat.zero_le _
  | number value => exact Nat.zero_le _
  | string value => exact Nat.zero_le _
  | array items =>
      have hItems := depthItems_le_length items
      rw [depth, write, bracketed, List.length_cons,
        List.length_append]
      omega
  | object members =>
      have hMembers := depthMembers_le_length members
      rw [depth, write, braced, List.length_cons,
        List.length_append]
      omega

theorem depthItems_le_length
    (items : List Json) :
    depthItems items ≤ (joinCommas (writeItems items)).length := by
  cases items with
  | nil => exact Nat.zero_le _
  | cons first rest =>
      have hFirst := depth_le_length first
      have hRest := depthItems_le_length rest
      rw [depthItems, writeItems, joinCommas_cons,
        List.length_append]
      cases rest with
      | nil =>
          rw [depthItems] at hRest ⊢
          omega
      | cons next rest =>
          rw [writeItems, joinCommas_cons] at hRest
          rw [writeItems, commaed_cons, List.length_cons]
          omega

theorem depthMembers_le_length
    (members : List (String × Json)) :
    depthMembers members
      ≤ (joinCommas (writeMembers members)).length := by
  cases members with
  | nil => exact Nat.zero_le _
  | cons first rest =>
      rcases first with ⟨name, value⟩
      have hFirst := depth_le_length value
      have hRest := depthMembers_le_length rest
      have hKeyed :
          value.write.length
            ≤ (keyed name value.write).length := by
        rw [keyed, List.length_append, List.length_cons]
        omega
      rw [depthMembers, writeMembers, joinCommas_cons,
        List.length_append]
      cases rest with
      | nil =>
          rw [depthMembers] at hRest ⊢
          omega
      | cons next rest =>
          rw [writeMembers, joinCommas_cons] at hRest
          rw [writeMembers, commaed_cons, List.length_cons]
          omega

end

/- A printed value that nobody asks for is passed over. -/
theorem skipValue_write
    (j : Json) :
    Reads skipValue j.write (.ok ()) := by
  intro rest hRest
  have hLength := j.depth_le_length
  unfold skipValue
  apply j.skips _ rest hRest
  rw [List.length_append]
  omega

end Json

end JourneyMatch

import Mathlib.Data.List.TakeWhile
import JourneyMatch.Intake.Basic
import JourneyMatch.Proofs.Intake.Lines
import JourneyMatch.Proofs.Pending.Taking

/-
  This file says what the intake of an input is. Each of its
  lines is exactly one of three: blank, malformed, or an
  event, and that is told from the bytes of the line alone.
  So the events of an input are those of its lines, in order,
  and two inputs with a newline between them give the events
  and the counts of both.

  Key definitions include:
    * `Core`
    * `Line.Is`
    * `Intake.followed`

  Main statements:
    * `trimmed_eq_iff`
    * `Line.is_iff`
    * `Intake.ofLines_append`
    * `Intake.read_append`
    * `Intake.read_by_line`
-/

namespace JourneyMatch

------------------------------------------------------------
-- White space around a text
------------------------------------------------------------

/-
  Whether a text is a core between two pieces of white space,
  one that neither begins nor ends with white space itself.
-/
structure Core
    (text core : List Char) : Prop where
  between :
    ∃ front back,
      text = front ++ (core ++ back)
        ∧ (∀ c ∈ front, isWhiteSpace c = true)
        ∧ ∀ c ∈ back, isWhiteSpace c = true
  first : ∀ c ∈ core.head?, isWhiteSpace c = false
  last : ∀ c ∈ core.getLast?, isWhiteSpace c = false

/- What is left after white space does not begin with it. -/
theorem head?_dropWhile
    (cs : List Char) :
    ∀ c ∈ (cs.dropWhile isWhiteSpace).head?,
      isWhiteSpace c = false := by
  intro c hHead
  have hNot := List.head?_dropWhile_not isWhiteSpace cs
  rw [Option.mem_def.mp hHead] at hNot
  exact hNot

/- Nothing is taken away where no white space begins. -/
theorem dropWhile_of_head?
    {cs : List Char}
    (hHead : ∀ c ∈ cs.head?, isWhiteSpace c = false) :
    cs.dropWhile isWhiteSpace = cs := by
  cases cs with
  | nil => rfl
  | cons c cs =>
      rw [List.dropWhile_cons_of_neg]
      simp [hHead c rfl]

theorem core_trimmed
    (text : List Char) :
    Core text (trimmed text) := by
  have hFront := head?_dropWhile text
  have hText :
      text.takeWhile isWhiteSpace ++ text.dropWhile isWhiteSpace
        = text :=
    List.takeWhile_append_dropWhile
  unfold trimmed withoutEnd
  generalize text.dropWhile isWhiteSpace = rest at hFront hText
  have hRest :
      rest
        = (rest.reverse.dropWhile isWhiteSpace).reverse
          ++ (rest.reverse.takeWhile isWhiteSpace).reverse := by
    rw [← List.reverse_append, List.takeWhile_append_dropWhile,
      List.reverse_reverse]
  refine ⟨⟨_, _, hText.symm.trans (congrArg _ hRest), ?_, ?_⟩,
    ?_, ?_⟩
  · intro c hMem
    exact List.mem_takeWhile_imp hMem
  · intro c hMem
    exact List.mem_takeWhile_imp (List.mem_reverse.mp hMem)
  · intro c hHead
    apply hFront
    rw [hRest, List.head?_append, Option.mem_def.mp hHead]
    rfl
  · intro c hLast
    rw [List.getLast?_reverse] at hLast
    exact head?_dropWhile _ c hLast

/- The text between its white space is its only core. -/
theorem trimmed_eq_iff
    {text core : List Char} :
    trimmed text = core ↔ Core text core := by
  constructor
  · intro hTrimmed
    rw [← hTrimmed]
    exact core_trimmed text
  · rintro ⟨⟨front, back, hText, hFront, hBack⟩, hFirst, hLast⟩
    subst hText
    rw [trimmed, List.dropWhile_append_of_pos hFront]
    by_cases hCore : core = []
    · subst hCore
      have hNothing : back.dropWhile isWhiteSpace = [] :=
        List.dropWhile_eq_nil_iff.mpr hBack
      rw [List.nil_append, hNothing]
      rfl
    · have hHead :
          ∀ c ∈ (core ++ back).head?,
            isWhiteSpace c = false := by
        intro c hMem
        obtain ⟨d, rest, hCons⟩ :=
          List.exists_cons_of_ne_nil hCore
        rw [hCons] at hMem hFirst
        exact hFirst c hMem
      have hEnd :
          ∀ c ∈ core.reverse.head?, isWhiteSpace c = false := by
        rwa [List.head?_reverse]
      have hBehind :
          ∀ c ∈ back.reverse, isWhiteSpace c = true := by
        intro c hMem
        exact hBack c (List.mem_reverse.mp hMem)
      rw [dropWhile_of_head? hHead, withoutEnd,
        List.reverse_append,
        List.dropWhile_append_of_pos hBehind,
        dropWhile_of_head? hEnd, List.reverse_reverse]

/- A text without a core is white space. -/
theorem core_nil_iff
    {text : List Char} :
    Core text [] ↔ ∀ c ∈ text, isWhiteSpace c = true := by
  constructor
  · rintro ⟨⟨front, back, hText, hFront, hBack⟩, -, -⟩
    rw [hText, List.nil_append]
    intro c hMem
    rcases List.mem_append.mp hMem with hBegin | hEnd
    · exact hFront c hBegin
    · exact hBack c hEnd
  · intro hWhite
    exact
      ⟨⟨text, [], by rw [List.append_nil, List.append_nil],
          hWhite, nofun⟩,
        nofun, nofun⟩

------------------------------------------------------------
-- What a line is
------------------------------------------------------------

/- A text is read from its own bytes and from no others. -/
theorem fromUTF8?_eq_some_iff
    {bytes : List UInt8}
    {text : String} :
    String.fromUTF8? (ByteArray.mk bytes.toArray) = some text
      ↔ utf8 text = bytes := by
  unfold String.fromUTF8?
  constructor
  · intro hText
    split at hText
    · cases hText
      rfl
    · cases hText
  · intro hBytes
    subst hBytes
    have hSame :
        ByteArray.mk (utf8 text).toArray = text.toByteArray := by
      rw [utf8, String.toUTF8_eq_toByteArray]
    rw [hSame, dif_pos text.isValidUTF8]
    rfl

namespace Line

/-
  What the bytes of a line are: blank, if they are a text of
  white space; malformed, if they are no text at all, or one
  whose core is not that of an event; and else an event.
-/
inductive Is : List UInt8 → Line → Prop where
  | blank
      {text : String}
      (hWhite : ∀ c ∈ text.toList, isWhiteSpace c = true) :
      Is (utf8 text) .blank
  | event
      {text : String}
      {core : List Char}
      {e : Event}
      (hCore : Core text.toList core)
      (hThere : core ≠ [])
      (hParse : Event.parse (String.ofList core) = .ok e) :
      Is (utf8 text) (.event e)
  | unread
      {text : String}
      {core : List Char}
      {cause : ReadError}
      (hCore : Core text.toList core)
      (hThere : core ≠ [])
      (hParse : Event.parse (String.ofList core) = .error cause) :
      Is (utf8 text) .malformed
  | noText
      {bytes : List UInt8}
      (hNoText : ∀ text, utf8 text ≠ bytes) :
      Is bytes .malformed

theorem ofBytes_utf8
    (text : String) :
    ofBytes (utf8 text) = ofText text := by
  rw [ofBytes, fromUTF8?_eq_some_iff.mpr rfl]

/- A text with a core is what reading makes of the core. -/
theorem ofText_of_core
    {text : String}
    {core : List Char}
    (hCore : Core text.toList core)
    (hThere : core ≠ []) :
    ofText text
      = match Event.parse (String.ofList core) with
        | .ok e => .event e
        | .error _ => .malformed := by
  have hTrimmed := trimmed_eq_iff.mpr hCore
  subst hTrimmed
  unfold ofText
  split
  · rename_i hNothing
    exact absurd hNothing hThere
  · cases Event.parse (String.ofList (trimmed text.toList)) <;>
      rfl

/- Bytes are of one kind, the one that the intake finds. -/
theorem is_iff
    {bytes : List UInt8}
    {line : Line} :
    Is bytes line ↔ ofBytes bytes = line := by
  constructor
  · intro hIs
    cases hIs with
    | blank hWhite =>
        have hCore := trimmed_eq_iff.mpr (core_nil_iff.mpr hWhite)
        rw [ofBytes_utf8, ofText, hCore]
    | event hCore hThere hParse =>
        rw [ofBytes_utf8, ofText_of_core hCore hThere, hParse]
    | unread hCore hThere hParse =>
        rw [ofBytes_utf8, ofText_of_core hCore hThere, hParse]
    | noText hNoText =>
        rw [ofBytes]
        split
        · rename_i text hText
          exact
            absurd (fromUTF8?_eq_some_iff.mp hText)
              (hNoText text)
        · rfl
  · intro hLine
    subst hLine
    by_cases hText : ∃ text, utf8 text = bytes
    · rcases hText with ⟨text, hBytes⟩
      subst hBytes
      have hCore := core_trimmed text.toList
      rw [ofBytes_utf8]
      by_cases hThere : trimmed text.toList = []
      · rw [hThere] at hCore
        rw [ofText, hThere]
        exact .blank (core_nil_iff.mp hCore)
      · rw [ofText_of_core hCore hThere]
        cases hParse :
            Event.parse (String.ofList (trimmed text.toList)) with
        | ok e => exact .event hCore hThere hParse
        | error cause => exact .unread hCore hThere hParse
    · have hNoText : ∀ text, utf8 text ≠ bytes :=
        fun text hSame => hText ⟨text, hSame⟩
      have hMalformed : ofBytes bytes = .malformed := by
        rw [ofBytes]
        split
        · rename_i text hFound
          exact
            absurd (fromUTF8?_eq_some_iff.mp hFound)
              (hNoText text)
        · rfl
      rw [hMalformed]
      exact .noText hNoText

/- An empty line is blank. -/
theorem ofBytes_nil :
    ofBytes [] = .blank :=
  is_iff.mp
    (show Is (utf8 "") .blank from .blank nofun)

/- The event of a line, if it is one. -/
def event? : Line → Option Event
  | .blank => none
  | .malformed => none
  | .event e => some e

/- Whether a line is malformed. -/
def isMalformed : Line → Bool
  | .blank => false
  | .malformed => true
  | .event _ => false

end Line

------------------------------------------------------------
-- The intake of lines
------------------------------------------------------------

namespace Intake

/- Two intakes, one after the other. -/
def followed
    (first second : Intake) : Intake where
  accepted := first.accepted + second.accepted
  malformed := first.malformed + second.malformed
  events := first.events ++ second.events

/- The intake of lines, of which each counts by itself. -/
theorem ofLines_eq
    (lines : List Line) :
    ofLines true lines
      = { accepted := (lines.filterMap Line.event?).length
          malformed := lines.countP Line.isMalformed
          events := lines.filterMap Line.event? } := by
  induction lines with
  | nil => rfl
  | cons line lines ih =>
      cases line with
      | blank =>
          rw [ofLines, ih]
          rfl
      | malformed =>
          rw [ofLines, ih, List.countP_cons_of_pos rfl]
          rfl
      | event e =>
          rw [ofLines, if_pos rfl, ih]
          rfl

theorem ofLines_append
    (first second : List Line) :
    ofLines true (first ++ second)
      = (ofLines true first).followed (ofLines true second) := by
  simp only [ofLines_eq, followed, List.filterMap_append,
    List.length_append, List.countP_append]

/- What is read while nobody asks to end. -/
theorem read_eq
    {shutdown : Shutdown}
    (hGoesOn : shutdown.ends = false)
    (input : List UInt8) :
    read shutdown true input
      = ofLines true ((linesOf input).map Line.ofBytes) := by
  rw [read, hGoesOn]
  rfl

/- Inputs with a newline between them are read in turn. -/
theorem read_append
    {shutdown : Shutdown}
    (hGoesOn : shutdown.ends = false)
    (first second : List UInt8) :
    read shutdown true (first ++ newline :: second)
      = (read shutdown true first).followed
        (read shutdown true second) := by
  simp only [read_eq hGoesOn]
  rw [← ofLines_append, ← List.map_append]
  rcases linesOf_append_newline first second with
    hLines | hLines
  · rw [hLines]
  · rw [hLines, List.map_append, List.map_cons,
      Line.ofBytes_nil, ofLines_append, ofLines,
      ← ofLines_append, List.map_append]

/- The intake of a single line. -/
theorem read_of_line
    {shutdown : Shutdown}
    {line : List UInt8}
    {kind : Line}
    (hGoesOn : shutdown.ends = false)
    (hLine : newline ∉ line)
    (hKind : Line.Is line kind) :
    read shutdown true line = ofLines true [kind] := by
  rw [read_eq hGoesOn, linesOf_of_notMem hLine, lastLine,
    ← Line.is_iff.mp hKind]
  split
  · rename_i hNothing
    rw [hNothing, Line.ofBytes_nil]
    rfl
  · rfl

/-
  While nobody asks to end and events are taken: two inputs
  with a newline between them give the events of the first
  and then those of the second, and the sums of their counts.
  Of any input, each line, be it ended or the last one, is of
  exactly one kind, which its bytes alone decide; the events
  are those of its lines in order, each of them accepted
  once; and a malformed line between two inputs adds to the
  count of malformed lines and to nothing else.
-/
theorem read_by_line
    {shutdown : Shutdown}
    (hGoesOn : shutdown.ends = false) :
    (∀ x y,
      let first := read shutdown true x
      let second := read shutdown true y
      let both := read shutdown true (x ++ newline :: y)
      both.events = first.events ++ second.events
        ∧ both.accepted = first.accepted + second.accepted
        ∧ both.malformed = first.malformed + second.malformed)
      ∧ (∀ input,
        ∃ ended tail kinds,
          let i := read shutdown true input
          Lined input ended tail
            ∧ List.Forall₂ Line.Is (ended ++ lastLine tail) kinds
            ∧ i.events = kinds.filterMap Line.event?
            ∧ i.accepted = i.events.length
            ∧ i.malformed = kinds.countP Line.isMalformed)
      ∧ (∀ line, ∃! kind, Line.Is line kind)
      ∧ (∀ line,
        (∀ text, utf8 text ≠ line) → Line.Is line .malformed)
      ∧ ∀ x line y,
        newline ∉ line →
          Line.Is line .malformed →
            let first := read shutdown true x
            let second := read shutdown true y
            let all :=
              read shutdown true
                (x ++ newline :: (line ++ newline :: y))
            all.events = first.events ++ second.events
              ∧ all.accepted = first.accepted + second.accepted
              ∧ all.malformed
                = first.malformed + 1 + second.malformed := by
  refine ⟨?_, ?_, ?_, fun _ => .noText, ?_⟩
  · intro x y first second both
    have hBoth : both = first.followed second :=
      read_append hGoesOn x y
    rw [hBoth]
    exact ⟨rfl, rfl, rfl⟩
  · intro input
    rcases exists_lined input with ⟨ended, tail, hLined⟩
    refine
      ⟨ended, tail, (linesOf input).map Line.ofBytes, hLined,
        ?_, ?_⟩
    · rw [hLined.linesOf_eq, List.forall₂_map_right_iff,
        List.forall₂_same]
      intro line _
      exact Line.is_iff.mpr rfl
    · rw [read_eq hGoesOn, ofLines_eq]
      exact ⟨rfl, rfl, rfl⟩
  · intro line
    exact
      ⟨Line.ofBytes line, Line.is_iff.mpr rfl,
        fun kind hKind => (Line.is_iff.mp hKind).symm⟩
  · intro x line y hLine hMalformed first second all
    have hAll :
        all
          = first.followed
            (.followed (ofLines true [.malformed]) second) := by
      rw [← read_of_line hGoesOn hLine hMalformed,
        ← read_append hGoesOn, ← read_append hGoesOn]
    rw [hAll]
    simp only [followed, ofLines, reject, empty,
      List.nil_append, Nat.zero_add, Nat.add_assoc, and_self]

/- The line of a message that was received. -/
def seenBytes : List UInt8 :=
  utf8 (Event.text (.received seenReceived))

theorem is_seenBytes :
    newline ∉ seenBytes
      ∧ ∃ e, Line.Is seenBytes (.event e) := by
  rcases Event.readAs_seenReceived.exists_parse with
    ⟨e, hParse, -⟩
  have hCore :
      Core (Event.text (.received seenReceived)).toList
        (Event.write (.received seenReceived)) := by
    rw [Event.text, String.toList_ofList, ← trimmed_eq_iff]
    rfl
  refine ⟨?_, e, .event hCore (by decide) hParse⟩
  rw [seenBytes, newline_mem_utf8_iff, Event.text,
    String.toList_ofList]
  decide

/- Two such lines, and two bytes that begin no character. -/
def seenTwice : List UInt8 :=
  seenBytes ++ newline :: ([255, 254] ++ newline :: seenBytes)

/- Both events are taken, whatever stands between them. -/
theorem read_by_line_seenBetween :
    Shutdown.lowered.ends = false
      ∧ newline ∉ [255, 254]
      ∧ Line.Is [255, 254] .malformed
      ∧ ∃ e,
        Line.Is seenBytes (.event e)
          ∧ (read .lowered true seenTwice).events = [e, e]
          ∧ (read .lowered true seenTwice).accepted = 2
          ∧ (read .lowered true seenTwice).malformed = 1 := by
  have hMalformed : Line.Is [255, 254] .malformed :=
    Line.is_iff.mpr rfl
  rcases is_seenBytes with ⟨hOneLine, e, hEvent⟩
  have hOne :
      read .lowered true seenBytes = ofLines true [.event e] :=
    read_of_line rfl hOneLine hEvent
  refine ⟨rfl, by decide, hMalformed, e, hEvent, ?_⟩
  rcases read_by_line (show Shutdown.lowered.ends = false from rfl)
    with ⟨-, -, -, -, hBetween⟩
  rcases hBetween seenBytes [255, 254] seenBytes (by decide)
      hMalformed with
    ⟨hEvents, hAccepted, hCount⟩
  refine ⟨?_, ?_, ?_⟩
  · rw [seenTwice, hEvents, hOne]
    rfl
  · rw [seenTwice, hAccepted, hOne]
    rfl
  · rw [seenTwice, hCount, hOne]
    rfl

end Intake

end JourneyMatch

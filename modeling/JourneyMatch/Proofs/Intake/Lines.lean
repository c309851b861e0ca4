import JourneyMatch.Intake.Line
import JourneyMatch.Proofs.Sorted.Utf8

/-
  This file says how bytes fall into lines. Any input is a
  number of lines, each ended by a newline, and a tail
  without one; these are its lines, and the tail is one only
  if there is something in it. A text puts a newline among
  its bytes only where it has one among its characters.

  Key definitions include:
    * `Lined`
    * `lastLine`

  Main statements:
    * `exists_lined`
    * `Lined.linesOf_eq`
    * `linesOf_append_newline`
    * `newline_mem_utf8_iff`
-/

namespace JourneyMatch

------------------------------------------------------------
-- The lines of an input
------------------------------------------------------------

/-
  Whether an input consists of ended lines and a tail that
  has not ended.
-/
structure Lined
    (input : List UInt8)
    (ended : List (List UInt8))
    (tail : List UInt8) : Prop where
  input :
    input = ended.flatMap (fun line => line ++ [newline]) ++ tail
  ended : ∀ line ∈ ended, newline ∉ line
  tail : newline ∉ tail

/- A tail is a line if there is something in it. -/
def lastLine
    (tail : List UInt8) : List (List UInt8) :=
  if tail = [] then [] else [tail]

theorem linesOf_of_notMem
    {tail : List UInt8}
    (hTail : newline ∉ tail) :
    linesOf tail = lastLine tail := by
  induction tail with
  | nil => rfl
  | cons byte rest ih =>
      have hByte : ¬ byte = newline := by
        intro hSame
        exact hTail (hSame ▸ List.mem_cons_self)
      have hRest : newline ∉ rest := fun hMem =>
        hTail (List.mem_cons_of_mem byte hMem)
      rw [linesOf, if_neg hByte, ih hRest]
      cases rest <;> rfl

theorem linesOf_append
    {line : List UInt8}
    (hLine : newline ∉ line)
    (rest : List UInt8) :
    linesOf (line ++ newline :: rest) = line :: linesOf rest := by
  induction line with
  | nil => rfl
  | cons byte line ih =>
      have hByte : ¬ byte = newline := by
        intro hSame
        exact hLine (hSame ▸ List.mem_cons_self)
      have hMore : newline ∉ line := fun hMem =>
        hLine (List.mem_cons_of_mem byte hMem)
      rw [List.cons_append, linesOf, if_neg hByte, ih hMore]

namespace Lined

variable {input tail : List UInt8}
variable {ended : List (List UInt8)}

/- One more line in front. -/
theorem cons
    {line : List UInt8}
    (hLined : Lined input ended tail)
    (hLine : newline ∉ line) :
    Lined (line ++ newline :: input) (line :: ended) tail where
  input := by
    rw [hLined.input, List.flatMap_cons]
    simp only [List.append_assoc, List.cons_append,
      List.nil_append]
  ended := List.forall_mem_cons.mpr ⟨hLine, hLined.ended⟩
  tail := hLined.tail

/- The lines are those that ended, and the tail. -/
theorem linesOf_eq
    (hLined : Lined input ended tail) :
    linesOf input = ended ++ lastLine tail := by
  rw [hLined.input]
  have hEnded := hLined.ended
  induction ended generalizing input with
  | nil => exact linesOf_of_notMem hLined.tail
  | cons line ended ih =>
      rw [List.forall_mem_cons] at hEnded
      rw [List.flatMap_cons, List.append_assoc,
        List.append_assoc, List.singleton_append,
        linesOf_append hEnded.1, List.cons_append,
        ih ⟨rfl, hEnded.2, hLined.tail⟩ hEnded.2]

/- A newline ends the tail of the input before it. -/
theorem append
    {other rest : List UInt8}
    {more : List (List UInt8)}
    (hLined : Lined input ended tail)
    (hOther : Lined other more rest) :
    Lined (input ++ newline :: other) (ended ++ tail :: more)
      rest where
  input := by
    rw [hLined.input, hOther.input]
    simp
  ended := by
    intro line hMem
    rcases List.mem_append.mp hMem with hFirst | hSecond
    · exact hLined.ended line hFirst
    · rcases List.mem_cons.mp hSecond with hHere | hThere
      · exact hHere ▸ hLined.tail
      · exact hOther.ended line hThere
  tail := hOther.tail

end Lined

/- Every input consists of lines. -/
theorem exists_lined
    (input : List UInt8) :
    ∃ ended tail, Lined input ended tail := by
  induction input with
  | nil => exact ⟨[], [], rfl, nofun, List.not_mem_nil⟩
  | cons byte rest ih =>
      rcases ih with ⟨ended, tail, hLined⟩
      by_cases hByte : byte = newline
      · exact
          ⟨[] :: ended, tail,
            hByte ▸ hLined.cons List.not_mem_nil⟩
      · -- The byte stands in front of the first line there is.
        cases ended with
        | nil =>
            refine ⟨[], byte :: tail, ?_, nofun, ?_⟩
            · rw [hLined.input]
              rfl
            · intro hMem
              rcases List.mem_cons.mp hMem with hHere | hThere
              · exact hByte hHere.symm
              · exact hLined.tail hThere
        | cons line ended =>
            refine
              ⟨(byte :: line) :: ended, tail, ?_, ?_,
                hLined.tail⟩
            · rw [hLined.input]
              rfl
            · have hEnded := hLined.ended
              rw [List.forall_mem_cons] at hEnded ⊢
              refine ⟨?_, hEnded.2⟩
              intro hMem
              rcases List.mem_cons.mp hMem with hHere | hThere
              · exact hByte hHere.symm
              · exact hEnded.1 hThere

/-
  Two inputs with a newline between them have the lines of
  both. Where the first one had ended already, there is an
  empty line between them.
-/
theorem linesOf_append_newline
    (first second : List UInt8) :
    linesOf (first ++ newline :: second)
        = linesOf first ++ linesOf second
      ∨ linesOf (first ++ newline :: second)
        = linesOf first ++ [] :: linesOf second := by
  rcases exists_lined first with ⟨ended, tail, hFirst⟩
  rcases exists_lined second with ⟨more, rest, hSecond⟩
  rw [(hFirst.append hSecond).linesOf_eq, hFirst.linesOf_eq,
    hSecond.linesOf_eq]
  by_cases hTail : tail = []
  · right
    subst hTail
    simp [lastLine]
  · left
    simp [lastLine, hTail]

------------------------------------------------------------
-- Newlines in texts
------------------------------------------------------------

/- No other character has a newline among its bytes. -/
theorem newline_mem_encodeChar_iff
    {c : Char} :
    newline ∈ String.utf8EncodeChar c ↔ c = '\n' := by
  have hNumber : c = '\n' ↔ c.val.toNat = 10 := by
    rw [Char.ext_iff, ← UInt32.toNat_inj]
    rfl
  have hLast : c.val.toNat < 1114112 := by
    rcases c.valid with hLow | ⟨-, hHigh⟩ <;> omega
  rw [hNumber]
  unfold String.utf8EncodeChar
  dsimp only
  generalize c.val.toNat = n at hLast
  split_ifs <;>
    simp (disch := omega) only [newline, List.mem_cons,
      List.not_mem_nil, or_false, ← UInt8.toNat_inj,
      UInt8.toNat_ofNat', Nat.mod_eq_of_lt,
      UInt8.reduceToNat] <;>
    omega

theorem newline_mem_utf8_iff
    {text : String} :
    newline ∈ utf8 text ↔ '\n' ∈ text.toList := by
  rw [utf8_eq_flatMap, List.mem_flatMap]
  constructor
  · rintro ⟨c, hMem, hByte⟩
    rw [newline_mem_encodeChar_iff] at hByte
    exact hByte ▸ hMem
  · intro hMem
    exact ⟨'\n', hMem, newline_mem_encodeChar_iff.mpr rfl⟩

end JourneyMatch

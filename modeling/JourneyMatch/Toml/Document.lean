import JourneyMatch.Toml.Reader

/-
  This file defines the document that a TOML text stands for:
  one table, into which the sections of the text are put, one
  after the other.

  Key definitions include:
    * `Section`
    * `Table.define`
    * `parse`
-/

namespace JourneyMatch

namespace Toml

------------------------------------------------------------
-- Sections
------------------------------------------------------------

/- A header and the assignments below it. -/
structure Section where
  repeated : Bool
  target : Target
  assignments : List Assignment

/-
  The assignments before the first header, and the sections.
-/
def sections :
    List Statement → List Assignment × List Section
  | [] => ([], [])
  | .assign a :: rest =>
      let (assignments, others) := sections rest
      (a :: assignments, others)
  | .table target :: rest =>
      let (assignments, others) := sections rest
      ([], ⟨false, target, assignments⟩ :: others)
  | .element target :: rest =>
      let (assignments, others) := sections rest
      ([], ⟨true, target, assignments⟩ :: others)

/-
  The value that a section makes of the one there was under
  its key. A table is defined once, after it may have been
  implied; a further table under a header in double brackets
  is added to those before it.
-/
def Section.value
    (s : Section)
    (old : Option Value) : Option Value :=
  match s.repeated, old with
  | false, none => do
      let t ← (Table.empty .header).assignAll s.assignments
      some t.value
  | false, some (.table .implied entries) => do
      let t ← (Table.mk .header entries).assignAll s.assignments
      some t.value
  | true, none => do
      let t ← (Table.empty .header).assignAll s.assignments
      some (.tables t.entries [])
  | true, some (.tables latest earlier) => do
      let t ← (Table.empty .header).assignAll s.assignments
      some (.tables t.entries (latest :: earlier))
  | _, _ => none

/- Puts a section into the table of the document. -/
def Table.define
    (s : Section)
    (root : Table) : Option Table :=
  root.enter .implied
    (fun t => do
      let v ← s.value (t.find? s.target.key)
      some (t.set s.target.key v))
    s.target.path

------------------------------------------------------------
-- Documents
------------------------------------------------------------

/- A text without the byte order mark at its front. -/
def withoutMark : List Char → List Char
  | '\uFEFF' :: rest => rest
  | cs => cs

/- The table that a text stands for, if it is TOML. -/
def parse
    (text : String) : Option Table := do
  let cs := withoutMark text.toList
  let statements ← readStatements (cs.length + 1) cs
  let (assignments, rest) := sections statements
  let root ← (Table.empty .header).assignAll assignments
  rest.foldlM (fun root s => root.define s) root

end Toml

end JourneyMatch

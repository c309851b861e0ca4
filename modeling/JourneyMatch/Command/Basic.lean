import JourneyMatch.Admin.Query
import JourneyMatch.Command.Arguments

/-
  This file defines the commands of an operator and how they
  are read from a command line.

  Key definitions include:
    * `Command`
    * `Verb`
    * `Node`
    * `Command.parse`
-/

namespace JourneyMatch

------------------------------------------------------------
-- Commands
------------------------------------------------------------

/- What an operator can have done. -/
inductive Command where
  | listPending
      (nameSpace : Namespace)
      (subscription : Option String)
      (limit : Nat)
  | deletePending (nameSpace : Namespace) (key : String)
  | clearPending (subscription : String)
  | listTasks (after : Option String) (limit : Nat)
  | removeTask (key : String)
  deriving DecidableEq, Repr

/- The kinds of commands. -/
inductive Verb where
  | listPending
  | deletePending
  | clearPending
  | listTasks
  | removeTask
  deriving DecidableEq, Repr

namespace Verb

/- What a kind of command takes. -/
def form : Verb → Form
  | .listPending => ⟨[.nameSpace], [.subscription, .limit]⟩
  | .deletePending => ⟨[.nameSpace, .key], []⟩
  | .clearPending => ⟨[.subscription], []⟩
  | .listTasks => ⟨[], [.after, .limit]⟩
  | .removeTask => ⟨[.key], []⟩

/- The namespace among values. -/
def nameSpace?
    (given : Given) : Option Namespace :=
  (given.lookup .nameSpace).bind Namespace.ofText?

/- The limit among values, or the usual one. -/
def limit
    (given : Given) : Nat :=
  ((given.lookup .limit).bind count?).getD defaultLimit

/- The command of given values, if none is missing. -/
def command?
    (given : Given) : Verb → Option Command
  | .listPending => do
      let n ← nameSpace? given
      some (.listPending n (given.lookup .subscription)
        (limit given))
  | .deletePending => do
      let n ← nameSpace? given
      let key ← given.lookup .key
      some (.deletePending n key)
  | .clearPending => do
      let subscription ← given.lookup .subscription
      some (.clearPending subscription)
  | .listTasks =>
      some (.listTasks (given.lookup .after) (limit given))
  | .removeTask => do
      let key ← given.lookup .key
      some (.removeTask key)

/- Reads a command whose name has been passed. -/
def read
    (v : Verb)
    (args : List String) : Except UsageError Command := do
  let given ← v.form.read args
  match v.command? given with
  | some c => .ok c
  | none => .error .missingArgument

end Verb

------------------------------------------------------------
-- Names
------------------------------------------------------------

/- The tree of the names of commands. -/
inductive Node where
  | verb (v : Verb)
  | group (children : List (String × Node))

namespace Node

/- The node of a name below a node. -/
def child?
    (name : String) : Node → Option Node
  | .verb _ => none
  | .group children => children.lookup name

/- All commands. -/
def root : Node :=
  .group
    [("pending",
        .group
          [("list", .verb .listPending),
            ("delete", .verb .deletePending),
            ("clear", .verb .clearPending)]),
      ("tasks",
        .group
          [("list", .verb .listTasks),
            ("remove", .verb .removeTask)])]

/-
  The help on what the names lead to. The word for help may
  itself come last in a group.
-/
def helpOn : Node → List String → UsageError
  | _, [] => .help
  | .verb _, _ :: _ => .unknownCommand
  | n, name :: rest =>
      match n.child? name with
      | some inner => helpOn inner rest
      | none =>
          if name = helpName ∧ rest = [] then
            .help
          else
            .unknownCommand

/- Whether a group knows a name, the word for help included. -/
def knows
    (name : String)
    (n : Node) : Bool :=
  name = helpName || (n.child? name).isSome

/-
  What is wrong with arguments after an escape where a name
  is due: a name must not stand there.
-/
def afterEscape
    (n : Node) : List String → UsageError
  | [] => .noCommand
  | name :: _ =>
      if n.knows name then .unknownArgument else .unknownCommand

/- What is wrong with an argument that is no name. -/
def notAName
    (n : Node)
    (arg : String)
    (rest : List String) : UsageError :=
  match Dashed.of arg.toList with
  | .escape => n.afterEscape rest
  | .plain => .unknownCommand
  | .long name value =>
      if name ≠ helpName then .unknownArgument
      else if value.isSome then .needlessValue
      else .help
  | .short letter _ =>
      if letter = helpLetter then .help else .unknownArgument

/- Reads a command line from a node on. -/
def read : Node → List String → Except UsageError Command
  | .verb v, args => v.read args
  | .group _, [] => .error .noCommand
  | n, arg :: rest =>
      match n.child? arg with
      | some inner => read inner rest
      | none =>
          if arg = helpName then
            .error (n.helpOn rest)
          else
            .error (n.notAName arg rest)

end Node

/- Reads a command line. -/
def Command.parse
    (args : List String) : Except UsageError Command :=
  Node.root.read args

end JourneyMatch

import JourneyMatch.Pending

/-
  This file defines the arguments of a command: values by
  position and values behind an option, and how they are
  taken from a command line.

  A value waits until it is clear that nothing more belongs
  to it. Only then is it found to be missing, repeated or not
  acceptable; a fault that is met before that comes first.

  Key definitions include:
    * `Parameter`
    * `Named`
    * `Form`
    * `UsageError`
    * `Intent`
    * `Intent.settle`
    * `Form.read`
-/

namespace JourneyMatch

------------------------------------------------------------
-- Parameters
------------------------------------------------------------

/- What a command can be given. -/
inductive Parameter where
  | nameSpace
  | key
  | subscription
  | after
  | limit
  deriving DecidableEq, Repr

/- The greatest limit that can be written. -/
def greatestCount : Nat :=
  twoTo 64 - 1

/- A count as it is written: digits, perhaps behind a plus. -/
def count?
    (s : String) : Option Nat :=
  let digits :=
    match s.toList with
    | '+' :: rest => rest
    | cs => cs
  if digits ≠ [] ∧ digits.all Char.isDigit then
    let n :=
      digits.foldl
        (fun n c => 10 * n + (c.toNat - '0'.toNat)) 0
    if n ≤ greatestCount then some n else none
  else
    none

namespace Parameter

/- Whether a value is acceptable. -/
def accepts
    (s : String) : Parameter → Bool
  | .nameSpace => (Namespace.ofText? s).isSome
  | .limit => (count? s).isSome
  | .key | .subscription | .after => true

end Parameter

/- A parameter that is given behind a name, long or short. -/
structure Named where
  parameter : Parameter
  long : String
  short : Char
  deriving DecidableEq, Repr

namespace Named

def subscription : Named :=
  ⟨.subscription, "subscription", 's'⟩

def after : Named :=
  ⟨.after, "after", 'a'⟩

def limit : Named :=
  ⟨.limit, "limit", 'l'⟩

end Named

/-
  What a command takes: values by position, in their order,
  and options.
-/
structure Form where
  places : List Parameter
  options : List Named

------------------------------------------------------------
-- Faults
------------------------------------------------------------

/- Why a command line is not carried out. -/
inductive UsageError where
  | help
  | noCommand
  | unknownCommand
  | unknownArgument
  | missingArgument
  | missingValue
  | refusedValue
  | repeatedOption
  | needlessValue
  deriving DecidableEq, Repr

/- The wording for a command line that is not carried out. -/
def UsageError.message : UsageError → String
  | .help =>
      "commands: pending list, pending delete, pending clear, "
        ++ "tasks list, tasks remove"
  | .noCommand => "a command is missing"
  | .unknownCommand => "unknown command"
  | .unknownArgument => "unexpected argument"
  | .missingArgument => "a required argument is missing"
  | .missingValue => "an option has no value"
  | .refusedValue => "invalid value"
  | .repeatedOption => "an option is given twice"
  | .needlessValue => "an option takes no value"

------------------------------------------------------------
-- Taking values
------------------------------------------------------------

/- The values that have been taken, by parameter. -/
abbrev Given :=
  List (Parameter × String)

/-
  How far a command line has been read: the values taken, the
  one that waits, and the places that are left. An option
  whose value is yet to come waits without one.
-/
structure Intent where
  given : Given
  waiting : Option (Parameter × Option String)
  places : List Parameter

namespace Intent

/- Takes a value for a parameter. -/
def take
    (p : Parameter)
    (value : Option String)
    (i : Intent) : Except UsageError Intent :=
  match value with
  | none => .error .missingValue
  | some s =>
      if (i.given.lookup p).isSome then
        .error .repeatedOption
      else if p.accepts s then
        .ok { i with given := i.given ++ [(p, s)] }
      else
        .error .refusedValue

/- Takes the value that waits, if one does. -/
def settle
    (i : Intent) : Except UsageError Intent :=
  match i.waiting with
  | none => .ok i
  | some (p, value) => take p value { i with waiting := none }

/- Lets an option wait for its value. -/
def await
    (p : Parameter)
    (i : Intent) : Except UsageError Intent := do
  let i ← i.settle
  .ok { i with waiting := some (p, none) }

/- Takes a value that is written together with its option. -/
def attach
    (p : Parameter)
    (s : String)
    (i : Intent) : Except UsageError Intent := do
  let i ← i.settle
  i.take p (some s)

/- Lets a value wait for the next place. -/
def place
    (s : String)
    (i : Intent) : Except UsageError Intent :=
  match i.places with
  | [] => .error .unknownArgument
  | p :: places => do
      let i ← i.settle
      .ok { i with waiting := some (p, some s), places }

/-
  Takes an argument without a dash: it is the value of the
  option that waits for one, or stands for the next place.
-/
def plain
    (s : String)
    (i : Intent) : Except UsageError Intent :=
  match i.waiting with
  | some (p, none) =>
      .ok { i with waiting := some (p, some s) }
  | _ => i.place s

/- Shows the help, unless the value that waits is at fault. -/
def showHelp
    (i : Intent) : Except UsageError Intent := do
  let _ ← i.settle
  .error .help

end Intent

------------------------------------------------------------
-- Options
------------------------------------------------------------

/- A name and, behind an equals sign, a value. -/
def nameAndValue
    (cs : List Char) : String × Option String :=
  let isName := fun c => c != '='
  match cs.dropWhile isName with
  | [] => (String.ofList cs, none)
  | _ :: value =>
      (String.ofList (cs.takeWhile isName),
        some (String.ofList value))

/- The value written behind a short name. -/
def shortValue? : List Char → Option String
  | [] => none
  | '=' :: rest => some (String.ofList rest)
  | cs => some (String.ofList cs)

/- An argument by its dashes. -/
inductive Dashed where
  | plain
  | escape
  | long (name : String) (value : Option String)
  | short (name : Char) (value : Option String)

/- What the dashes of an argument say. A lone one is plain. -/
def Dashed.of : List Char → Dashed
  | ['-', '-'] => .escape
  | '-' :: '-' :: cs =>
      let (name, value) := nameAndValue cs
      .long name value
  | '-' :: c :: cs => .short c (shortValue? cs)
  | _ => .plain

/- The long name of the option for help. -/
def helpName : String :=
  "help"

/- The short name of the option for help. -/
def helpLetter : Char :=
  'h'

/- What an option that has been found does. -/
def Intent.option
    (p : Parameter)
    (value : Option String)
    (i : Intent) : Except UsageError Intent :=
  match value with
  | some s => i.attach p s
  | none => i.await p

namespace Form

/- Takes an argument that no escape has come before. -/
def step
    (f : Form)
    (arg : String)
    (i : Intent) : Except UsageError Intent :=
  match Dashed.of arg.toList with
  | .plain | .escape => i.plain arg
  | .long name value =>
      if name = helpName then
        if value.isSome then
          .error .needlessValue
        else
          i.showHelp
      else
        match f.options.find? (·.long = name) with
        | some o => i.option o.parameter value
        | none => .error .unknownArgument
  | .short letter value =>
      if letter = helpLetter then
        i.showHelp
      else
        match f.options.find? (·.short = letter) with
        | some o => i.option o.parameter value
        | none => .error .unknownArgument

/-
  Takes all arguments. After an escape, every argument stands
  for a place.
-/
def steps
    (f : Form) :
    List String → Intent → Except UsageError Intent
  | [], i => i.settle
  | arg :: rest, i =>
      match Dashed.of arg.toList with
      | .escape => do
          let i ← rest.foldlM (fun i s => i.place s) i
          i.settle
      | _ => do
          let i ← f.step arg i
          steps f rest i

/- The values of a command line. -/
def read
    (f : Form)
    (args : List String) : Except UsageError Given := do
  let i ← f.steps args ⟨[], none, f.places⟩
  .ok i.given

end Form

end JourneyMatch

import CaseAccess.Integer64
import CaseAccess.Text.Decimal

/-!
# The options of a command

Options are written `--name value` or `--name=value`, each at most once. A value on
its own does not begin with a hyphen, unless it is nothing else. An option is only
settled when the next one begins or the arguments end, so an argument that nobody
knows is complained about first.
-/

namespace CaseAccess

/-- Why arguments are refused, or ask for something else than a command. -/
inductive UsageError where
  | help
  | version
  | commandMissing
  | commandUnknown
  | argumentUnknown
  | optionMissing
  | optionRepeated
  | valueMissing
  | valueUnexpected
  | valueUnreadable
  deriving DecidableEq, Repr, Inhabited

def UsageError.message : UsageError → String
  | .help => "help"
  | .version => "version"
  | .commandMissing => "a command is missing"
  | .commandUnknown => "there is no such command"
  | .argumentUnknown => "an argument is not known here"
  | .optionMissing => "an option that the command needs is missing"
  | .optionRepeated => "an option is given twice"
  | .valueMissing => "an option has no value"
  | .valueUnexpected => "an option takes no value"
  | .valueUnreadable => "the value of an option cannot be read"

/-- What an option takes. -/
inductive ValueKind where
  | path
  | text
  | integer
  deriving DecidableEq, Repr

structure OptionSpec where
  name : String
  kind : ValueKind
  required : Bool := false
  deriving DecidableEq, Repr

/-- The integer of 64 bits that a text writes. -/
def readInteger? (s : String) : Option Int :=
  let (negative, ds) := match s.toList with
    | '-' :: ds => (true, ds)
    | '+' :: ds => (false, ds)
    | ds => (false, ds)
  if ds.isEmpty || !ds.all Char.isDigit then none
  else
    let n : Int := if negative then -Decimal.value ds else Decimal.value ds
    if Integer64.contains n then some n else none

/-- Ends with an error unless the text is a value of that kind. -/
def ValueKind.check : ValueKind → String → Except UsageError Unit
  | .path, s => if s = "" then .error .valueMissing else .ok ()
  | .text, _ => .ok ()
  | .integer, s => if (readInteger? s).isSome then .ok () else .error .valueUnreadable

namespace Arguments

/-- The options that have been settled, with their values. -/
abbrev Values := List (String × String)

def Values.get? (vs : Values) (name : String) : Option String :=
  (vs.find? (·.1 = name)).map (·.2)

/-- Settles an option. -/
def Values.add (vs : Values) (o : OptionSpec) (value : String) : Except UsageError Values := do
  if (vs.get? o.name).isSome then throw .optionRepeated
  o.kind.check value
  return vs ++ [(o.name, value)]

/-- The option that is still open, and its value if that has been read. -/
abbrev Open := Option (OptionSpec × Option String)

/-- Settles the option that is open. -/
def Values.settle (vs : Values) : Open → Except UsageError Values
  | none => .ok vs
  | some (_, none) => .error .valueMissing
  | some (o, some value) => vs.add o value

/-- An argument by its form. -/
inductive Form where
  | word
  | short (letter : Char)
  | long (name : String) (value : Option String)
  deriving DecidableEq, Repr

/-- The form of an argument. A lone hyphen is a word. -/
def formOf (argument : String) : Form :=
  match argument.toList with
  | '-' :: '-' :: rest =>
      let name := String.ofList (rest.takeWhile (· ≠ '='))
      match rest.dropWhile (· ≠ '=') with
      | _ :: value => .long name (some (String.ofList value))
      | [] => .long name none
  | '-' :: letter :: _ => .short letter
  | _ => .word

/-- Reads the options of a command from its arguments. -/
def read (specs : List OptionSpec) (vs : Values) (current : Open) :
    List String → Except UsageError Values
  | [] => vs.settle current
  | argument :: rest => do
      if argument = "--" then
        if rest.isEmpty then vs.settle current else throw .argumentUnknown
      else match formOf argument with
      | .long name value =>
          match specs.find? (·.name = name), value with
          | some o, some value => read specs (← (← vs.settle current).add o value) none rest
          | some o, none => read specs (← vs.settle current) (some (o, none)) rest
          | none, value =>
              if name ≠ "help" then throw .argumentUnknown
              if value.isSome then throw .valueUnexpected
              let _ ← vs.settle current
              throw .help
      | .short letter =>
          if letter ≠ 'h' then throw .argumentUnknown
          let _ ← vs.settle current
          throw .help
      | .word =>
          match current with
          | some (o, none) => read specs vs (some (o, some argument)) rest
          | _ => throw .argumentUnknown

/-- The values of the options of a command. -/
def readAll (specs : List OptionSpec) (arguments : List String) : Except UsageError Values := do
  let vs ← read specs [] none arguments
  if specs.any fun o => o.required && (vs.get? o.name).isNone then throw .optionMissing
  return vs

end Arguments

end CaseAccess

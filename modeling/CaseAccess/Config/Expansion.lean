import CaseAccess.Config.Error
import CaseAccess.Text.Alphanumeric

/-!
# Variables in values

`$NAME` and `${NAME}` stand for a variable of the environment, `${NAME:-text}` for
the text when there is no such variable, and `$$` for a dollar sign. A dollar sign
before anything else stands for itself, and so does `${` without a brace to close
it. A `~` at the start, alone or before a slash, stands for the home directory,
unless it came out of a variable.
-/

namespace CaseAccess

/-- The variables of an environment. -/
abbrev Environment := String → Option String

namespace Expansion

def isNameChar (c : Char) : Bool := isAlphanumeric c || c = '_'

/-- The texts before and after the first `:-`. -/
def splitDefault : List Char → Option (List Char × List Char)
  | ':' :: '-' :: rest => some ([], rest)
  | c :: rest => (splitDefault rest).map fun (name, text) => (c :: name, text)
  | [] => none

/-- The value of what stands between braces. -/
def braced (env : Environment) (inside : List Char) : Except ConfigError (List Char) :=
  let (name, fallback) := match splitDefault inside with
    | some (c :: name, text) => (c :: name, some text)
    | _ => (inside, none)
  match env (String.ofList name), fallback with
  | some value, _ => .ok value.toList
  | none, some text => .ok text
  | none, none => .error (.variable (String.ofList name))

/-- The text with the values of its variables. -/
def substitute (env : Environment) : List Char → Except ConfigError (List Char)
  | [] => .ok []
  | '$' :: '$' :: rest => (substitute env rest).map ('$' :: ·)
  | '$' :: '\x7b' :: rest =>
      let inside := rest.takeWhile (· ≠ '\x7d')
      if inside.length < rest.length then do
        let value ← braced env inside
        let tail ← substitute env (rest.drop (inside.length + 1))
        return value ++ tail
      else (substitute env rest).map fun tail => '$' :: '\x7b' :: tail
  | '$' :: c :: rest =>
      if isNameChar c then do
        let name := c :: rest.takeWhile isNameChar
        match env (String.ofList name) with
        | none => throw (.variable (String.ofList name))
        | some value =>
            let tail ← substitute env (rest.drop (rest.takeWhile isNameChar).length)
            return value.toList ++ tail
      else (substitute env (c :: rest)).map ('$' :: ·)
  | c :: rest => (substitute env rest).map (c :: ·)
termination_by s => s.length
decreasing_by all_goals (simp only [List.length_cons, List.length_drop]; omega)

/-- The text with the home directory in place of a leading `~`. -/
def home (env : Environment) (s : List Char) : List Char :=
  match s, env "HOME" with
  | ['~'], some dir => dir.toList
  | '~' :: '/' :: rest, some dir => dir.toList ++ '/' :: rest
  | _, _ => s

/-- The text with its variables and the home directory. -/
def expand (env : Environment) (s : String) : Except ConfigError String := do
  let text ← substitute env s.toList
  if s.toList.head? = some '~' ∨ text.head? ≠ some '~' then
    return String.ofList (home env text)
  else return String.ofList text

end Expansion

/-- The value of a field with its variables and the home directory. -/
def expandField (env : Environment) (name value : String) : Except ConfigError String :=
  ConfigError.inPart s!"expand env value for '{name}'" (Expansion.expand env value)

end CaseAccess

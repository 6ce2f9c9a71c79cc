import CaseAccess.CommandLine.Arguments

/-!
# Commands

There are three commands: one shows the configuration, one serves, and one makes a
token. In front of a command there may be a question for help or for the version.
-/

namespace CaseAccess

open Arguments (Values formOf readAll)

/-- The directories that the options name. -/
structure DirectoryOptions where
  config : Option String := none
  data : Option String := none
  deriving DecidableEq, Repr, Inhabited

/-- The client that a token is made for, and what the token says. -/
structure TokenOptions where
  clientId : String
  secret : String
  userId : Option String
  userRepresentation : Option String
  issuedAt : Option Int
  deriving DecidableEq, Repr, Inhabited

inductive Command where
  | config (options : DirectoryOptions)
  | serve (options : DirectoryOptions)
  | token (options : TokenOptions)
  deriving DecidableEq, Repr

namespace Command

def directorySpecs : List OptionSpec := [
  { name := "config-dir", kind := .path },
  { name := "data-dir", kind := .path }]

def tokenSpecs : List OptionSpec := [
  { name := "client-id", kind := .text, required := true },
  { name := "secret", kind := .text, required := true },
  { name := "user-id", kind := .text },
  { name := "user-representation", kind := .text },
  { name := "issued-at", kind := .integer }]

def directoryOptions (vs : Values) : DirectoryOptions where
  config := vs.get? "config-dir"
  data := vs.get? "data-dir"

def tokenOptions (vs : Values) : TokenOptions where
  clientId := (vs.get? "client-id").getD ""
  secret := (vs.get? "secret").getD ""
  userId := vs.get? "user-id"
  userRepresentation := vs.get? "user-representation"
  issuedAt := vs.get? "issued-at" >>= readInteger?

/-- The words that a command line may begin with. -/
def words : List String := ["config", "serve", "token", "help"]

/-- What the words after `help` ask for: the help, about a command or in general. -/
def helpAbout : List String → UsageError
  | [] => .help
  | [word] => if word ∈ words then .help else .commandUnknown
  | _ => .commandUnknown

/-- What the first argument asks for if it is no command. -/
def refusal (argument : String) : UsageError :=
  match formOf argument with
  | .word => .commandUnknown
  | .short 'h' | .long "help" none => .help
  | .short 'V' | .long "version" none => .version
  | .long "help" (some _) | .long "version" (some _) => .valueUnexpected
  | _ => .argumentUnknown

/-- The command that the arguments give. -/
def parse : List String → Except UsageError Command
  | [] | ["--"] => .error .commandMissing
  | "--" :: word :: _ => .error (if word ∈ words then .argumentUnknown else .commandUnknown)
  | "config" :: rest => (readAll directorySpecs rest).map fun vs => .config (directoryOptions vs)
  | "serve" :: rest => (readAll directorySpecs rest).map fun vs => .serve (directoryOptions vs)
  | "token" :: rest => (readAll tokenSpecs rest).map fun vs => .token (tokenOptions vs)
  | "help" :: rest => .error (helpAbout rest)
  | argument :: _ => .error (refusal argument)

end Command

end CaseAccess

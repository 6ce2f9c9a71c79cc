import CaseAccess.CommandLine.Command
import CaseAccess.Config.Server
import CaseAccess.Toml.Parser
import CaseAccess.Token.Signing

/-!
# What the commands do

The directories come from the options, else from the environment, else from the
place where the machine keeps such things: one place for the administrator, and one
below the home of anyone else. The configuration stands in a settings file in its
directory; without the file every field has its default.
-/

namespace CaseAccess

/-- Why a command fails. -/
inductive CommandError where
  | homeUnknown
  | settingsMalformed
  | settingsMisfit
  | config (cause : ConfigError)
  | signer (cause : Token.SignerError)
  deriving DecidableEq, Repr

def CommandError.message : CommandError → String
  | .homeUnknown =>
      "could not determine home directory, please specify config path manually"
  | .settingsMalformed => "parse config toml: the text is malformed"
  | .settingsMisfit => "parse config toml: a value does not fit its field"
  | .config cause => s!"validate config: {cause.message}"
  | .signer cause => cause.message

/-- What a command sees of the machine. -/
structure Machine where
  env : Environment
  /-- Whether the administrator runs the command. -/
  isAdministrator : Bool

namespace Machine

/-- The home of the user. -/
def home (m : Machine) : Except CommandError String :=
  match (m.env "HOME").or (m.env "USERPROFILE") with
  | some dir => .ok dir
  | none => .error .homeUnknown

/-- A directory: the one of the option, else of the environment, else the administrator's,
else one below the home. -/
def directory (m : Machine) (option : Option String) (key administrator below : String) :
    Except CommandError String :=
  match option.or (m.env key) with
  | some dir => .ok dir
  | none =>
      if m.isAdministrator then .ok administrator
      else m.home.map fun dir => pathIn dir below

def directories (m : Machine) (options : DirectoryOptions) : Except CommandError Directories := do
  let config ← m.directory options.config "ZGW_AUTHZ_CONFIG" "/etc/zgw-authz" ".config/zgw-authz"
  let data ← m.directory options.data "ZGW_AUTHZ_DATA" "/var/lib/zgw-authz"
    ".local/share/zgw-authz"
  return ⟨config, data, pathIn config "pki"⟩

end Machine

/-- The path of the settings file. -/
def Directories.settings (dirs : Directories) : String :=
  pathIn dirs.config "server.toml"

/-- The configuration that a settings file gives. -/
def loadConfig (m : Machine) (dirs : Directories) (file : Option String) :
    Except CommandError ServerConfig := do
  let draft ← match file with
    | none => pure {}
    | some text =>
        match Toml.parse? text with
        | none => throw .settingsMalformed
        | some v =>
            match ServerConfig.layout.decode v with
            | none => throw .settingsMisfit
            | some c => pure c
  match draft.complete m.env dirs with
  | .ok c => return c
  | .error e => throw (.config e)

/-- A configuration as it is shown: without its secrets. -/
def ServerConfig.display (c : ServerConfig) : String :=
  c.masked.toJson.indented 0

/-- The token that options ask for, issued at `now` if they do not say when. -/
def TokenOptions.token (o : TokenOptions) (now : Int) : Except CommandError String :=
  match Token.Signer.of? o.clientId o.secret with
  | .ok signer => .ok (signer.sign (o.issuedAt.getD now) o.userId o.userRepresentation)
  | .error e => .error (.signer e)

end CaseAccess

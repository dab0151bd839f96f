import QueryGuard.Config.Setting
import QueryGuard.Error
import QueryGuard.Text.Letter
import QueryGuard.Toml.Reader

/-!
Where a configuration comes from: a file that the caller names, else the first of the usual files
that is there, else the standard. A variable of the environment has the last word on whether the
guard is enabled.
-/

namespace QueryGuard

/-- What a path leads to. -/
inductive FileState where
  | missing
  | directory
  /-- A file that does not hold text, or must not be read. -/
  | unreadable
  | text (content : String)
  deriving DecidableEq, Repr

/-- The path leads to a file. -/
def FileState.isFile : FileState → Bool
  | .text _ | .unreadable => true
  | .missing | .directory => false

namespace Config

/-- The configuration that a TOML document says. -/
def ofToml? (content : String) : Option Config :=
  (Toml.parse? content).bind (·.config? Setting.tomlFormat)

/-! ### Files -/

/-- The configuration file of the working directory. -/
def localFile : String := "sqlwarden.toml"

/-- The path of what a relative path leads to from a directory. -/
def below (directory path : String) : String :=
  if directory.toList.getLast? = some '/' then directory ++ path else directory ++ "/" ++ path

/-- The path starts at the root of all files. -/
def isAbsolute (path : String) : Bool := path.toList.head? == some '/'

/-- The variable that names the directory of the user's configurations. -/
def directoryVariable : String := "XDG_CONFIG_HOME"

/-- The variable that names the home directory. -/
def homeVariable : String := "HOME"

/-- The directory of the user's configurations: the one that is named, if its path is absolute,
else the usual one in the home directory. -/
def userDirectory? (named home : Option String) : Option String :=
  (named.filter isAbsolute).or ((home.filter (!·.isEmpty)).map (below · ".config"))

/-- The configuration file below the directory of the user's configurations. -/
def userFile (directory : String) : String := below directory "sqlwarden/config.toml"

/-- Where configurations are looked for. -/
structure Sources where
  files : String → FileState
  /-- The directory of the user's configurations. -/
  userDirectory : Option String
  /-- The variable that enables or disables the guard. -/
  enabled : Option String

/-- The usual files, the most special one first. -/
def usualFiles (userDirectory : Option String) : List String :=
  localFile :: (userDirectory.map userFile).toList

/-- The configuration file that is read. -/
def Sources.file? (s : Sources) (named : Option String) : Option String :=
  named.or ((usualFiles s.userDirectory).find? fun path => (s.files path).isFile)

/-- The configuration in a file. -/
def ofFile (files : String → FileState) (path : String) : Except InputError Config :=
  match files path with
  | .text content =>
    match ofToml? content with
    | some c => .ok c
    | none => .error (.config path)
  | _ => .error (.config path)

/-! ### The variable -/

/-- The variable that enables or disables the guard. -/
def enabledVariable : String := "SQLWARDEN_ENABLED"

/-- Whether the words of a variable enable or disable; other words do neither. -/
def enables? (raw : String) : Option Bool :=
  let word := String.ofList (Text.lower (Text.trim raw.toList))
  if ["1", "true", "yes", "on"].contains word then some true
  else if ["0", "false", "no", "off"].contains word then some false
  else none

/-- **The configuration of a run**, where the caller may name a file. -/
def load (s : Sources) (named : Option String) : Except InputError Config := do
  let config ← match s.file? named with
    | some path => ofFile s.files path
    | none => .ok standard
  return { config with enabled := (s.enabled.bind enables?).getD config.enabled }

end Config

end QueryGuard

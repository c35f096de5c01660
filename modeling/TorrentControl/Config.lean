import TorrentControl.Config.CommandLine
import TorrentControl.Config.Environment
import TorrentControl.Config.Toml

/-! # Configuration

The daemon's configuration comes in four layers: built-in defaults, a file, environment variables and
command-line flags. A higher layer overrides a lower one setting by setting, and only what is left on
top is checked. A layer that cannot be read at all spoils the whole. The file is named by a flag or,
without it, by an environment variable. -/

namespace TorrentControl

structure Config where
  rpcSocket : Endpoint
  logFilter : String
  logFormat : LogFormat
  sessionManifest : Option String
deriving DecidableEq, Repr

/-- What a configuration is loaded from. -/
structure ConfigSources where
  arguments : List String
  environment : List (String × String)
  /-- The text of the file at a path, if there is one. -/
  file? : String → Option String

namespace Config

/-! ## Defaults -/

/-- A path below a directory; an absolute one stands on its own. -/
def join (directory name : String) : String :=
  if Disk.isAbsolute name then name
  else if directory = "" ∨ Disk.endsInSlash directory then directory ++ name
  else directory ++ "/" ++ name

def socketName : String :=
  "switchboardd.sock"

/-- The directory of the socket: in the user's runtime directory if there is one, and otherwise a
directory of the user's own among the temporary files. -/
def socketDirectory (environment : List (String × String)) : String :=
  match (KeyMap.find? environment "XDG_RUNTIME_DIR").filter Disk.isAbsolute with
  | some directory => join directory "switchboard"
  | none =>
    join (join ((KeyMap.find? environment "TMPDIR").getD "/tmp") "switchboard") "uid-0"

/-- The defaults, as a command line could give them. -/
def defaultLine (environment : List (String × String)) : CommandLine where
  rpcSocket := some (.unix (join (socketDirectory environment) socketName))
  logFilter := some "info"
  logFormat := some .json
  sessionManifest := none
  configPath := none

/-! ## Loading -/

/-- The settings of a configuration file, which may not build on another file. -/
def ofFile? (text : String) : Option Setting := do
  let settings ← Toml.read? text
  if (settings.find? "extends").isSome then none else return settings

def text? : Setting → Option String
  | .text s => some s
  | _ => none

/-- The name of a format, on its own or as the only key of a table that says nothing about it. -/
def logFormat? : Setting → Option LogFormat
  | .text name | .table [(name, .null)] => LogFormat.ofName? name
  | _ => none

/-- Checks what the layers say together. -/
def ofSettings? (settings : Setting) : Option Config := do
  let sessionManifest ← match settings.find? "session_manifest" with
    | none | some .null => some none
    | some setting => (text? setting).map some
  return {
    rpcSocket := ← Endpoint.ofSetting? (← settings.find? "rpc_socket")
    logFilter := ← text? (← settings.find? "log_filter")
    logFormat := ← logFormat? (← settings.find? "log_format")
    sessionManifest }

/-- The variable that names the configuration file. -/
def pathVariable : String :=
  "SWITCHBOARD_CONFIG_PATH"

/-- The path of the configuration file, if one is named. -/
def path? (line : CommandLine) (environment : List (String × String)) : Option String :=
  line.configPath.or ((KeyMap.find? environment pathVariable).filter (· ≠ ""))

/-- What the flags say. A command line that repeats all of the defaults and nothing else counts as
an empty one, so that it does not override the layers in between. -/
def flagSettings (line : CommandLine) (environment : List (String × String)) : Setting :=
  if line = defaultLine environment then .empty else line.settings

/-- Loads the configuration, if every layer can be read and the result is valid. -/
def load? (sources : ConfigSources) : Option Config := do
  let line ← CommandLine.parse? sources.arguments
  let file ← match path? line sources.environment with
    | none => some .empty
    | some path => (sources.file? path).bind ofFile?
  let lower := (defaultLine sources.environment).settings.merge file
  let upper := flagSettings line sources.environment
  ofSettings? ((lower.merge (Environment.settings sources.environment)).merge upper)

end Config

end TorrentControl

import TorrentControl.Daemon

/-! # The program

Loads the configuration, bootstraps a daemon and serves the lines of standard input as if each were
sent over a connection of its own. Who listens at the endpoint and hands the connections over is not
the program's business; it stops in order when its input ends. -/

namespace TorrentControl.Program

open Net (Network)

/-- The variables that say something about the configuration. -/
def variableNames : List String :=
  [Config.pathVariable, "XDG_RUNTIME_DIR", "TMPDIR", "SWITCHBOARD_RPC_SOCKET",
   "SWITCHBOARD_RPC_SOCKET__TRANSPORT", "SWITCHBOARD_RPC_SOCKET__PATH",
   "SWITCHBOARD_RPC_SOCKET__HOST", "SWITCHBOARD_RPC_SOCKET__PORT", "SWITCHBOARD_LOG_FILTER",
   "SWITCHBOARD_LOG_FORMAT", "SWITCHBOARD_SESSION_MANIFEST"]

def readVariables : IO (List (String × String)) :=
  variableNames.filterMapM fun name => do
    return (← IO.getEnv name).map fun value => (name, value)

/-- The text of a file, if it can be read. -/
def readFile? (path : String) : IO (Option String) := do
  try return some (← IO.FS.readFile path) catch _ => return none

def loadConfig (arguments : List String) : IO (Option Config) := do
  let environment ← readVariables
  let path := (CommandLine.parse? arguments).bind fun line => Config.path? line environment
  let text ← match path with
    | some path => readFile? path
    | none => pure none
  return Config.load? ⟨arguments, environment, fun asked => if some asked = path then text else none⟩

/-- A disk that has the manifest at its path and nothing else. -/
def readDisk (config : Option Config) : IO Disk := do
  match config.bind Config.sessionManifest with
  | none => return .empty
  | some path =>
    match ← readFile? path with
    | none => return .empty
    | some text =>
      let disk := (Disk.empty.createDirectories ((Disk.parent? path).getD "")).toOption.getD .empty
      return disk.put (Disk.components path) (.file (Text.Utf8.encodeText text))

def network : Network :=
  { names := [("localhost", "127.0.0.1")], taken := [], free := 5080, isUp := true }

/-- Serves one line of input after the other. -/
partial def serveLines (input output : IO.FS.Stream) (d : RunningDaemon) : IO RunningDaemon := do
  let line ← input.getLine
  if line.isEmpty then return d
  let (outcome, d) := d.serve (Text.Utf8.encodeText line)
  output.putStr (Rpc.Connection.reply outcome)
  output.flush
  serveLines input output d

def fail (e : RunError) : IO UInt32 := do
  IO.eprintln ("switchboardd: " ++ e.message)
  return 1

def run (arguments : List String) : IO UInt32 := do
  let config ← loadConfig arguments
  match Daemon.bootstrap config (← readDisk config) with
  | (.error e, _) => fail (.bootstrap e)
  | (.ok daemon, disk) =>
    match daemon.start network disk with
    | .error e => fail (.listener e)
    | .ok running =>
      discard (serveLines (← IO.getStdin) (← IO.getStdout) running)
      return 0

end TorrentControl.Program

def main (arguments : List String) : IO UInt32 :=
  TorrentControl.Program.run arguments

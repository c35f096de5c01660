import TorrentControl.Config
import TorrentControl.Session.Manifest.Json

/-! # Bootstrap

Before the daemon can listen it loads its configuration, creates the directory of its socket and
builds the session that it serves. The first step that fails ends the bootstrap. -/

namespace TorrentControl

inductive BootstrapError where
  | configuration
  | socket (e : Endpoint.PreparationError)
  | manifestRead (path : String) (e : DiskError)
  | manifestParse (path : String) (problem : Json.Problem)
  | manifest (path : String) (e : ManifestError)
deriving DecidableEq

namespace BootstrapError

def code : BootstrapError → String
  | .configuration => "configuration"
  | .socket _ => "socket"
  | .manifestRead _ _ => "manifest_read"
  | .manifestParse _ _ => "manifest_parse"
  | .manifest _ _ => "manifest"

def message : BootstrapError → String
  | .configuration => "failed to load configuration"
  | .socket e => "failed to prepare RPC socket: " ++ e.message
  | .manifestRead path e => "failed to read session manifest '" ++ path ++ "': " ++ e.message
  | .manifestParse path .malformed =>
    "failed to parse session manifest '" ++ path ++ "': not JSON"
  | .manifestParse path (.invalid what) =>
    "failed to parse session manifest '" ++ path ++ "': " ++ what.message
  | .manifest path e => "invalid session manifest '" ++ path ++ "': " ++ e.message

end BootstrapError

/-- A daemon that is ready to listen. -/
structure Daemon where
  config : Config
  session : Session
deriving DecidableEq

/-- The session that the manifest at a path describes; an empty one if there is no path. -/
def Session.load (disk : Disk) : Option String → Except BootstrapError Session
  | none => .ok .empty
  | some path => do
    let text ← Except.mapError (.manifestRead path) (disk.readText path)
    let manifest ← Except.mapError (.manifestParse path) (SessionManifest.ofText text)
    Except.mapError (.manifest path) manifest.build

/-- Gets a daemon ready and leaves the disk with the directory of its socket. `config` is absent if
the configuration could not be loaded. -/
def Daemon.bootstrap (config : Option Config) (disk : Disk) : Except BootstrapError Daemon × Disk :=
  match config with
  | none => (.error .configuration, disk)
  | some config =>
    match config.rpcSocket.prepare disk with
    | .error e => (.error (.socket e), disk)
    | .ok disk => (Daemon.mk config <$> Session.load disk config.sessionManifest, disk)

end TorrentControl

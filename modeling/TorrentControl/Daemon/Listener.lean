import TorrentControl.Endpoint
import TorrentControl.Net.Network

/-! # Listening at an endpoint

A socket that nobody listens at any more is replaced; one that is alive, and anything that is no
socket, is left alone. The socket is removed when the daemon stops. -/

namespace TorrentControl

open Net (Network NetworkError)

inductive ListenerError where
  | resolve (host : String) (port : UInt16) (e : NetworkError)
  | bindTcp (host : String) (port : UInt16) (e : NetworkError)
  | bindUnix (path : String) (e : DiskError)
  | inUse (path : String)
  | notSocket (path : String)
  | staleSocket (path : String) (e : DiskError)
deriving DecidableEq, Repr

namespace ListenerError

def code : ListenerError → String
  | .resolve _ _ _ => "resolve"
  | .bindTcp _ _ _ => "bind_tcp"
  | .bindUnix _ _ => "bind_unix"
  | .inUse _ => "in_use"
  | .notSocket _ => "not_socket"
  | .staleSocket _ _ => "stale_socket"

def place (host : String) (port : UInt16) : String :=
  host ++ ":" ++ toString port.toNat

def message : ListenerError → String
  | .resolve host port e => "failed to resolve " ++ place host port ++ ": " ++ e.message
  | .bindTcp host port e =>
    "failed to bind TCP listener at " ++ place host port ++ ": " ++ e.message
  | .bindUnix path e => "failed to bind Unix listener at " ++ path ++ ": " ++ e.message
  | .inUse path => "socket " ++ path ++ " is already in use"
  | .notSocket path => path ++ " exists and is not a socket"
  | .staleSocket path e => "failed to clear stale socket " ++ path ++ ": " ++ e.message

end ListenerError

namespace Endpoint

/-- Removes a socket that nobody listens at. -/
def clearStale (disk : Disk) (path : String) : Except ListenerError Disk :=
  match disk.connect path with
  | .ok () => .error (.inUse path)
  | .error .refused | .error .notFound => Except.mapError (.staleSocket path) (disk.unlink path)
  | .error e => .error (.staleSocket path e)

/-- The disk on which nothing is in the way of a socket any more. -/
def makeRoom (disk : Disk) (path : String) : Except ListenerError Disk :=
  match disk.inspect path with
  | .ok (.socket _) => clearStale disk path
  | .ok _ => .error (.notSocket path)
  | .error .notFound => .ok disk
  | .error e => .error (.staleSocket path e)

/-- Starts listening. The endpoint that comes back has the port that was picked. -/
def bind (network : Network) (disk : Disk) : Endpoint → Except ListenerError (Endpoint × Disk)
  | .unix path => do
    let disk ← makeRoom disk path
    return (.unix path, ← Except.mapError (.bindUnix path) (disk.bindSocket path))
  | .tcp host port => do
    let address ← Except.mapError (.resolve host port) (network.resolve host)
    return (.tcp host (← Except.mapError (.bindTcp host port) (network.bind address port)), disk)

/-- Stops listening and removes the socket, if it can be removed. -/
def release (disk : Disk) : Endpoint → Disk
  | .unix path => (disk.unlink path).toOption.getD disk
  | .tcp _ _ => disk

end Endpoint

end TorrentControl

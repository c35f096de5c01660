import TorrentControl.Config.Setting
import TorrentControl.Disk
import TorrentControl.Net.Url

/-! # Endpoints

Where the daemon listens: at a socket on the disk or at a port of a host. An endpoint is written as a
URL, or in configuration files as a table with the key `transport`. -/

namespace TorrentControl

inductive Endpoint where
  | unix (path : String)
  | tcp (host : String) (port : UInt16)
deriving DecidableEq, Repr

inductive EndpointError where
  | unsupportedScheme (scheme : String)
  | missingHost (text : String)
  | missingPort (text : String)
  | missingUnixPath (text : String)
  | url (e : Net.UrlError)
deriving DecidableEq, Repr

namespace EndpointError

def code : EndpointError → String
  | .unsupportedScheme _ => "unsupported_scheme"
  | .missingHost _ => "missing_host"
  | .missingPort _ => "missing_port"
  | .missingUnixPath _ => "missing_unix_path"
  | .url _ => "url"

def message : EndpointError → String
  | .unsupportedScheme scheme => "unsupported socket scheme '" ++ scheme ++ "'"
  | .missingHost text => "missing TCP host in '" ++ text ++ "'"
  | .missingPort text => "missing TCP port in '" ++ text ++ "'"
  | .missingUnixPath text => "missing Unix socket path in '" ++ text ++ "'"
  | .url e => e.message

end EndpointError

namespace Endpoint

def text : Endpoint → String
  | .unix path => "unix://" ++ path
  | .tcp host port => "tcp://" ++ host ++ ":" ++ toString port.toNat

def unixPath? : Endpoint → Option String
  | .unix path => some path
  | .tcp _ _ => none

/-! ## Reading -/

def parse (text : String) : Except EndpointError Endpoint := do
  let url ← Except.mapError .url (Net.Url.parse text)
  if url.scheme = "unix" then
    if url.path = "" ∨ url.path = "/" then throw (.missingUnixPath text)
    return .unix url.path
  else if url.scheme = "tcp" then
    match url.host, url.port with
    | none, _ => throw (.missingHost text)
    | _, none => throw (.missingPort text)
    | some host, some port => return .tcp host port
  else throw (.unsupportedScheme url.scheme)

def asText? : Setting → Option String
  | .text s => some s
  | _ => none

def asPort? : Setting → Option UInt16
  | .int n => if 0 ≤ n ∧ n ≤ 65535 then some (UInt16.ofNat n.toNat) else none
  | _ => none

inductive Transport where
  | unix
  | tcp
deriving DecidableEq, Repr

/-- A transport is given by its name or by its place among the two. -/
def asTransport? : Setting → Option Transport
  | .text "unix" => some .unix
  | .text "tcp" => some .tcp
  | .int 0 => some .unix
  | .int 1 => some .tcp
  | _ => none

/-- A URL, a table, or the fields of a table in their order. -/
def ofSetting? : Setting → Option Endpoint
  | .text text => (parse text).toOption
  | .table entries => do
    match ← asTransport? (← KeyMap.find? entries "transport") with
    | .unix => return .unix (← asText? (← KeyMap.find? entries "path"))
    | .tcp =>
      return .tcp (← asText? (← KeyMap.find? entries "host")) (← asPort? (← KeyMap.find? entries "port"))
  | .list [transport, path] => do
    match ← asTransport? transport with
    | .unix => return .unix (← asText? path)
    | .tcp => none
  | .list [transport, host, port] => do
    match ← asTransport? transport with
    | .unix => none
    | .tcp => return .tcp (← asText? host) (← asPort? port)
  | _ => none

/-! ## The directory of a socket -/

inductive PreparationError where
  | missingParent (path : String)
  | createDirectory (path : String) (e : DiskError)
deriving DecidableEq, Repr

def PreparationError.message : PreparationError → String
  | .missingParent path => "socket path '" ++ path ++ "' has no parent directory"
  | .createDirectory path e =>
    "failed to create socket directory '" ++ path ++ "': " ++ e.message

/-- Creates the directory that the socket is to lie in. -/
def prepare (disk : Disk) : Endpoint → Except PreparationError Disk
  | .tcp _ _ => .ok disk
  | .unix path =>
    match Disk.parent? path with
    | none | some "" => .error (.missingParent path)
    | some parent => Except.mapError (.createDirectory parent) (disk.createDirectories parent)

end Endpoint

end TorrentControl

import TorrentControl.CommandError
import TorrentControl.Json.Problem

/-! # Failures of requests

What can keep a request from being answered, with the code and the text that a client is told. -/

namespace TorrentControl.Rpc

inductive MalformedLine where
  | empty
  | notJson
  | other (message : String)
deriving DecidableEq, Repr

def MalformedLine.message : MalformedLine → String
  | .empty => "empty request line"
  | .notJson => "not a JSON text"
  | .other message => message

inductive InvalidRequest where
  | shape (what : Json.Invalid)
  | blankMethod
  /-- A built-in method was given parameters that it cannot use. -/
  | parameters (e : ValueError)
  | other (message : String)
deriving DecidableEq, Repr

def InvalidRequest.message : InvalidRequest → String
  | .shape what => what.message
  | .blankMethod => "method is empty"
  | .parameters e => e.message
  | .other message => message

inductive Failure where
  | malformed (why : MalformedLine)
  | invalid (why : InvalidRequest)
  | unknownMethod (method : String)
  | unknownDownload (hash : String)
  | tooLarge (limit : Nat)
  /-- The connection could not be read or written. -/
  | connection (message : String)
  /-- A response line could not be written. -/
  | unwritten (message : String)
  | command (e : CommandError)
  | reactorGone
deriving DecidableEq, Repr

namespace Failure

def code : Failure → String
  | .malformed _ => "malformed_jsonl"
  | .invalid _ => "invalid_structure"
  | .unknownMethod _ => "unknown_method"
  | .unknownDownload _ => "unknown_download"
  | .tooLarge _ => "request_too_large"
  | .connection _ => "io"
  | .unwritten _ => "serialize"
  | .command e => e.code
  | .reactorGone => "reactor_unavailable"

def message : Failure → String
  | .malformed why => "malformed JSONL: " ++ why.message
  | .invalid why => "invalid request: " ++ why.message
  | .unknownMethod method => "unknown method \"" ++ method ++ "\""
  | .unknownDownload hash => "no download with hash " ++ hash
  | .tooLarge limit => "request exceeds " ++ toString limit ++ " bytes"
  | .connection message => "connection error: " ++ message
  | .unwritten message => "failed to serialise response: " ++ message
  | .command e => e.message
  | .reactorGone => "the command reactor is not running"

/-- 1 for what the client did wrong, 2 for what went wrong on this side. -/
def exitStatus : Failure → Nat
  | .connection _ | .unwritten _ | .reactorGone => 2
  | _ => 1

end Failure

end TorrentControl.Rpc

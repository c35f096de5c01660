import TorrentControl.Rpc.Reactor
import TorrentControl.Rpc.Response

/-! # Connections

A connection carries one request: the bytes up to the first line break, or all of them if there is
none. What the client sends after that is not looked at. -/

namespace TorrentControl.Rpc.Connection

/-- How many bytes a request line may have, its line break included. -/
def lineLimit : Nat := 65536

def lineBreak : UInt8 := 0x0A

/-- The bytes up to the first line break, which is the last of them if there is one. -/
def firstLine (stream : List UInt8) : List UInt8 :=
  stream.takeWhile (· != lineBreak) ++ (stream.dropWhile (· != lineBreak)).take 1

/-- The request line of a stream; nothing if the stream is empty. -/
def readLine (stream : List UInt8) : Except Failure (Option (List UInt8)) :=
  let line := firstLine stream
  if line.isEmpty then .ok none
  else if lineLimit < line.length then .error (.tooLarge lineLimit)
  else .ok (some line)

/-- Runs the request of a stream. Nothing is answered if there is none. -/
def serve (r : Reactor) (stream : List UInt8) : Option Outcome × Reactor :=
  match readLine stream with
  | .ok none => (none, r)
  | .error f => (some (.error f), r)
  | .ok (some line) =>
    match Request.ofLine line with
    | .error f => (some (.error f), r)
    | .ok request =>
      let (outcome, r) := r.handle request
      (some outcome, r)

/-- What the client is sent. -/
def reply (outcome : Option Outcome) : String :=
  match outcome with
  | none => ""
  | some outcome =>
    match Sink.unbounded.writeOutcome outcome with
    | .ok sink => sink.written
    | .error _ => ""

end TorrentControl.Rpc.Connection

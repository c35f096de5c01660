import TorrentControl.Rpc.Failure
import TorrentControl.Text.Utf8
import TorrentControl.Value.Json

/-! # Responses

A response is two lines of JSON: the result or the failure, and the exit status. They are written to
a sink, which may have room for some of it only. -/

namespace TorrentControl.Rpc

open Json (Document)

abbrev Outcome := Except Failure Value

inductive Message where
  | result (v : Value)
  | error (code message : String)
  | exit (status : Nat)
deriving DecidableEq

namespace Message

def toDocument : Message → Document
  | .result v => .record [("kind", .string "result"), ("value", v.toDocument)]
  | .error code message =>
    .record [("kind", .string "error"), ("code", .string code), ("message", .string message)]
  | .exit status => .record [("kind", .string "exit"), ("status", .int status)]

def toLine (m : Message) : String :=
  m.toDocument.render

end Message

/-- The messages that a client gets for an outcome. -/
def Outcome.messages : Outcome → List Message
  | .ok v => [.result v, .exit 0]
  | .error f => [.error f.code f.message, .exit f.exitStatus]

/-! ## Sinks -/

structure Sink where
  /-- How many more bytes the sink takes; `none` is without end. -/
  room : Option Nat
  /-- What the sink says when it is flushed and cannot be. -/
  flushFault : Option String
  written : String
deriving DecidableEq, Repr

namespace Sink

def unbounded : Sink :=
  ⟨none, none, ""⟩

/-- Writes a text, or nothing if there is no room for all of it. -/
def write (sink : Sink) (text : String) : Option Sink :=
  match sink.room with
  | none => some { sink with written := sink.written ++ text }
  | some room =>
    let size := Text.Utf8.byteLength text.toList
    if size ≤ room then
      some { sink with room := some (room - size), written := sink.written ++ text }
    else none

def fullText : String := "full"

/-- Writes a message and ends its line. -/
def writeMessage (sink : Sink) (m : Message) : Except Failure Sink :=
  match sink.write m.toLine with
  | none => .error (.unwritten fullText)
  | some sink =>
    match sink.write "\n" with
    | none => .error (.connection fullText)
    | some sink => .ok sink

def flush (sink : Sink) : Except Failure Sink :=
  match sink.flushFault with
  | none => .ok sink
  | some fault => .error (.connection fault)

/-- Writes a whole response. -/
def writeOutcome (sink : Sink) (outcome : Outcome) : Except Failure Sink := do
  (← outcome.messages.foldlM writeMessage sink).flush

end Sink

end TorrentControl.Rpc

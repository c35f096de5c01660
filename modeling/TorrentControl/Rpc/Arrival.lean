import TorrentControl.Rpc.Connection
import TorrentControl.Text.Utf8

/-! # Streams that arrive in pieces

What a client sends arrives in pieces of any size. The request line is read through a buffer, which
is filled from one piece at a time, up to the first line break or the end of the stream. It is not
read further than one byte beyond what a line may have. -/

namespace TorrentControl.Rpc

/-- Bytes that arrive together, of which there is at least one. -/
structure Piece where
  first : UInt8
  others : List UInt8
deriving DecidableEq, Repr

def Piece.bytes (p : Piece) : List UInt8 :=
  p.first :: p.others

/-- A stream as it arrives: its pieces, and then the end. -/
abbrev Arrival := List Piece

namespace Arrival

/-- All of the stream. -/
def bytes (a : Arrival) : List UInt8 :=
  a.flatMap Piece.bytes

/-- Puts what is left of a piece in front of the pieces after it. -/
def putBack : List UInt8 → Arrival → Arrival
  | [], later => later
  | b :: bs, later => ⟨b, bs⟩ :: later

/-- Reads at most so many bytes, all from one piece; nothing at the end of the stream. -/
def read (asked : Nat) : Arrival → List UInt8 × Arrival
  | [] => ([], [])
  | piece :: later => (piece.bytes.take asked, putBack (piece.bytes.drop asked) later)

theorem read_length_le (asked : Nat) (a : Arrival) : (a.read asked).1.length ≤ asked := by
  cases a with
  | nil => exact Nat.zero_le _
  | cons piece later => exact List.length_take_le _ _

/-- How many bytes the buffer has. -/
def bufferSize : Nat := 8192

/-- Reads bytes up to the first line break, `room` bytes at most. -/
def lineWithin (room : Nat) (a : Arrival) : List UInt8 :=
  match _got : a.read (min bufferSize room) with
  | ([], _) => []
  | (b :: bs, later) =>
    if Connection.lineBreak ∈ b :: bs then Connection.firstLine (b :: bs)
    else b :: bs ++ lineWithin (room - (b :: bs).length) later
termination_by room
decreasing_by
  have hle := read_length_le (min bufferSize room) a
  rw [_got] at hle
  simp only [List.length_cons] at hle ⊢
  omega

/-- The request line of the stream; nothing if the stream is empty. -/
def requestLine (a : Arrival) : Except Failure (Option (List UInt8)) :=
  let line := a.lineWithin (Connection.lineLimit + 1)
  if line.isEmpty then .ok none
  else if Connection.lineLimit < line.length then .error (.tooLarge Connection.lineLimit)
  else .ok (some line)

end Arrival

namespace Connection

variable {m : Type → Type} [Monad m]

/-- Answers a stream. The request, if there is one, is submitted to the reactor. -/
def answer (submit : Request → m Outcome) (a : Arrival) : m (Option Outcome) :=
  match a.requestLine with
  | .ok none => return none
  | .error f => return some (.error f)
  | .ok (some line) =>
    match Request.ofLine line with
    | .error f => return some (.error f)
    | .ok request => do
      return some (← submit request)

/-- Handles a connection to the end, and answers what the client is sent. -/
def handle (submit : Request → m Outcome) (a : Arrival) : m (List UInt8) := do
  return Text.Utf8.encodeText (reply (← answer submit a))

end Connection

end TorrentControl.Rpc

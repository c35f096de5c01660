import TorrentControl.Session
import TorrentControl.Value.Argument

/-! # Commands on the parts of a download

What the commands read from files, cursors, peers and trackers, and the two settings among them. -/

namespace TorrentControl

/-! ## Files and cursors -/

inductive FileReading where
  | path
  | pathComponents
  | sizeInBytes
  | sizeInChunks
  | completedChunks
  | offset
  | priority
deriving DecidableEq, Repr

/-- Reads the file at an index of a list. -/
def FileReading.read (list : FileList) (index : Nat) (file : File) : FileReading → Value
  | .path => .text file.pathText
  | .pathComponents => .list (file.path.map .text)
  | .sizeInBytes => .int file.size
  | .sizeInChunks => .int (list.fileChunks index)
  | .completedChunks => .int file.completedChunks
  | .offset => .int (list.offset index)
  | .priority => .int file.priority

inductive CursorReading where
  | position
  | isLast
deriving DecidableEq, Repr

/-- Reads a cursor that points at one of so many files. -/
def CursorReading.read (position count : Nat) : CursorReading → Value
  | .position => .ofCount position
  | .isLast => .ofBool (position + 1 == count)

/-! ## Peers and trackers -/

inductive PeerReading where
  | address
  | port
  | clientVersion
  | id
  | upRate
  | upTotal
  | downRate
  | downTotal
  | isEncrypted
  | isIncoming
  | completedPercent
deriving DecidableEq, Repr

def PeerReading.read (peer : Peer) : PeerReading → Value
  | .address => .text peer.address
  | .port => .ofCount peer.port.toNat
  | .clientVersion => .text peer.clientVersion
  | .id => .text (peer.id.toHex .upper)
  | .upRate => .int peer.up.rate
  | .upTotal => .int peer.up.total
  | .downRate => .int peer.down.rate
  | .downTotal => .int peer.down.total
  | .isEncrypted => .ofBool peer.isEncrypted
  | .isIncoming => .ofBool peer.isIncoming
  | .completedPercent => .int peer.completedPercent

inductive TrackerReading where
  | url
  | group
  | protocolCode
  | isEnabled
  | scrapeComplete
  | scrapeIncomplete
  | scrapeDownloaded
deriving DecidableEq, Repr

def TrackerReading.read (tracker : Tracker) : TrackerReading → Value
  | .url => .text tracker.url
  | .group => .int tracker.group
  | .protocolCode => .int tracker.protocol.code
  | .isEnabled => .ofBool tracker.isEnabled
  | .scrapeComplete => .int tracker.scrapeComplete
  | .scrapeIncomplete => .int tracker.scrapeIncomplete
  | .scrapeDownloaded => .int tracker.scrapeDownloaded

/-! ## Changes -/

/-- Changes the file at an index of a download. -/
def Download.onFile (d : Download) (index : Nat) (change : File → File) : Download :=
  { d with files := { d.files with files := d.files.files.modify index change } }

def Download.onTracker (d : Download) (index : Nat) (change : Tracker → Tracker) : Download :=
  { d with trackers := { d.trackers with trackers := d.trackers.trackers.modify index change } }

/-- Reads the priority that a file is to get. -/
def filePriority (args : Value) : Except CommandError Int64 := do
  let n ← args.asIntArgument
  if n.toInt < 0 ∨ 2 < n.toInt then throw (.input .filePriorityOutOfRange)
  return n

end TorrentControl

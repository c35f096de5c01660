import TorrentControl.Session.Digest

/-! # Peers and trackers of a download -/

namespace TorrentControl

/-- A transfer rate in bytes per second, and the bytes transferred so far. -/
structure Transfer where
  rate : Int64
  total : Int64
deriving DecidableEq

def Transfer.zero : Transfer :=
  ⟨0, 0⟩

structure Peer where
  address : String
  port : UInt16
  clientVersion : String
  id : Digest
  up : Transfer
  down : Transfer
  isEncrypted : Bool
  isIncoming : Bool
  completedPercent : Int64
deriving DecidableEq

/-! ## Trackers -/

inductive TrackerProtocol where
  | http
  | udp
  | dht
deriving DecidableEq, Repr

namespace TrackerProtocol

def code : TrackerProtocol → Int64
  | .http => 1
  | .udp => 2
  | .dht => 3

/-- The protocol of an announce URL; what names no other one is HTTP. -/
def ofUrl (url : String) : TrackerProtocol :=
  if "udp://".toList.isPrefixOf url.toList then .udp
  else if "dht://".toList.isPrefixOf url.toList then .dht
  else .http

end TrackerProtocol

structure Tracker where
  url : String
  /-- The tier that the tracker belongs to. -/
  group : Int64
  protocol : TrackerProtocol
  isEnabled : Bool
  scrapeComplete : Int64
  scrapeIncomplete : Int64
  scrapeDownloaded : Int64
deriving DecidableEq

/-- An enabled tracker that was never asked. -/
def Tracker.ofUrl (url : String) (group : Int64) : Tracker :=
  { url
    group
    protocol := .ofUrl url
    isEnabled := true
    scrapeComplete := 0
    scrapeIncomplete := 0
    scrapeDownloaded := 0 }

structure TrackerList where
  trackers : List Tracker
  /-- How many peers to ask for, -1 for what the tracker thinks right. -/
  numWant : Int64
  /-- The index of the tracker in use. -/
  focus : Nat
deriving DecidableEq

def TrackerList.empty : TrackerList :=
  ⟨[], -1, 0⟩

end TorrentControl

import TorrentControl.Session

/-! # Session manifests

A manifest describes a session as plain data. Building a session from it checks what the data alone
cannot rule out: the digits of hashes and bitfields, the names of connection types, and that no two
downloads have the same hash. -/

namespace TorrentControl

/-! ## Descriptions -/

structure FileManifest where
  path : String
  size : Int64
  completedChunks : Int64
  priority : Option Int64
deriving DecidableEq

structure PeerManifest where
  address : String
  port : UInt16
  clientVersion : String
  /-- Forty hexadecimal digits. -/
  id : Option String
  upRate : Int64
  downRate : Int64
  isEncrypted : Bool
  isIncoming : Bool
  completedPercent : Int64
deriving DecidableEq

structure TrackerManifest where
  url : String
  group : Int64
  isDisabled : Bool
  scrapeComplete : Int64
  scrapeIncomplete : Int64
  scrapeDownloaded : Int64
deriving DecidableEq

structure DownloadManifest where
  name : String
  /-- Forty hexadecimal digits. -/
  hash : String
  localId : Option String
  directory : String
  isMultiFile : Bool
  chunkSize : Option Int64
  files : List FileManifest
  peers : List PeerManifest
  trackers : List TrackerManifest
  isPrivate : Bool
  isActive : Bool
  priority : Option Int64
  connection : Option String
  upTotal : Int64
  bytesDone : Int64
  creationDate : Int64
  custom : KeyMap String
  views : List String
  bitfield : Option String
  isPexDisabled : Bool
deriving DecidableEq

structure SessionManifest where
  downloads : List DownloadManifest
deriving DecidableEq

/-! ## Building -/

/-- A field of a description that holds a digest. -/
inductive DigestField where
  | hash
  | localId
  | peerId
deriving DecidableEq, Repr

def DigestField.name : DigestField → String
  | .hash => "hash"
  | .localId => "local_id"
  | .peerId => "peer id"

inductive ManifestError where
  | invalidHash (download : String) (field : DigestField) (value : String)
  | duplicateHash (hash : String)
  | state (download : String) (source : CommandError)
  | invalidBitfield (download value : String)
  | unknownConnection (download value : String)
deriving DecidableEq, Repr

namespace ManifestError

def code : ManifestError → String
  | .invalidHash _ _ _ => "invalid_hash"
  | .duplicateHash _ => "duplicate_hash"
  | .state _ _ => "state"
  | .invalidBitfield _ _ => "invalid_bitfield"
  | .unknownConnection _ _ => "unknown_connection_type"

def message : ManifestError → String
  | .invalidHash download field value =>
    "invalid " ++ field.name ++ " '" ++ value ++ "' for download '" ++ download ++
      "': expected 40 hex digits"
  | .duplicateHash hash => "duplicate info hash " ++ hash
  | .state download source =>
    "cannot seed state of download '" ++ download ++ "': " ++ source.message
  | .invalidBitfield download value =>
    "invalid bitfield '" ++ value ++ "' for download '" ++ download ++ "'"
  | .unknownConnection download value =>
    "unknown connection type '" ++ value ++ "' for download '" ++ download ++ "'"

end ManifestError

def FileManifest.build (m : FileManifest) : File :=
  let file := File.ofPath m.path m.size
  { file with
    completedChunks := m.completedChunks
    priority := m.priority.getD file.priority }

def TrackerManifest.build (m : TrackerManifest) : Tracker :=
  { Tracker.ofUrl m.url m.group with
    isEnabled := !m.isDisabled
    scrapeComplete := m.scrapeComplete
    scrapeIncomplete := m.scrapeIncomplete
    scrapeDownloaded := m.scrapeDownloaded }

/-- Reads the digest in a field of the description of a download. -/
def readDigest (download : String) (field : DigestField) (value : String) :
    Except ManifestError Digest :=
  match Digest.ofHex? value with
  | some digest => .ok digest
  | none => .error (.invalidHash download field value)

def PeerManifest.build (m : PeerManifest) (download : String) : Except ManifestError Peer := do
  let id ← match m.id with
    | some id => readDigest download .peerId id
    | none => pure Digest.zero
  return {
    address := m.address
    port := m.port
    clientVersion := m.clientVersion
    id
    up := ⟨m.upRate, 0⟩
    down := ⟨m.downRate, 0⟩
    isEncrypted := m.isEncrypted
    isIncoming := m.isIncoming
    completedPercent := m.completedPercent }

namespace DownloadManifest

/-- Fills the state of a fresh download: started or not, the custom fields, and the views. -/
def seed (m : DownloadManifest) : Download.Edit Unit := do
  if m.isActive then Download.Edit.setVariable "state" (.int 1)
  Download.Edit.onVariable "custom" fun fields => do
    let entries ← fields.asMap
    return .map (m.custom.foldl (fun all entry => KeyMap.insert all entry.1 (.text entry.2)) entries)
  Download.Edit.onVariable "views" fun views => do
    return .list ((← views.asList) ++ m.views.map .text)

/-- Checks the hash, the local id, the peers in order, the bitfield and the connection type, in this
order. -/
def build (m : DownloadManifest) : Except ManifestError Download := do
  let hash ← readDigest m.name .hash m.hash
  let fresh := Download.fresh m.name hash
  let localId ← match m.localId with
    | some id => readDigest m.name .localId id
    | none => pure fresh.localId
  let peers ← m.peers.mapM fun peer => peer.build m.name
  let bitfield ← match m.bitfield with
    | none => pure fresh.bitfield
    | some digits =>
      match Text.Hex.decode digits with
      | some bytes => pure bytes
      | none => throw (.invalidBitfield m.name digits)
  let connection ← match m.connection with
    | none => pure fresh.connection
    | some name =>
      match ConnectionType.ofName? name with
      | some connection => pure connection
      | none => throw (.unknownConnection m.name name)
  let d : Download := { fresh with
    localId
    files := { fresh.files with
      directory := m.directory
      isMultiFile := m.isMultiFile
      chunkSize := m.chunkSize.getD fresh.files.chunkSize
      files := m.files.map FileManifest.build }
    peers
    trackers := { fresh.trackers with trackers := m.trackers.map TrackerManifest.build }
    bitfield
    isPexEnabled := !m.isPexDisabled
    isPrivate := m.isPrivate
    isActive := m.isActive
    isOpen := m.isActive
    priority := m.priority.getD fresh.priority
    connection
    up := { fresh.up with total := m.upTotal }
    bytesDone := m.bytesDone
    creationDate := m.creationDate
    peersAccounted := Number.Word.ofCount peers.length
    peersComplete := Number.Word.ofCount
      (peers.countP fun peer => decide (100 ≤ peer.completedPercent.toInt)) }
  match (m.seed.run d : Except CommandError Unit × Download) with
  | (.ok (), seeded) => return seeded
  | (.error source, _) => throw (.state m.name source)

end DownloadManifest

/-- Builds the downloads in order. One with the hash of an earlier one is an error. -/
def SessionManifest.build (m : SessionManifest) : Except ManifestError Session :=
  m.downloads.foldlM (fun session described => do
    let d ← described.build
    if (session.findByHash? d.infoHash).isSome then throw (.duplicateHash d.hashText)
    return (session.insert d).2) Session.empty

end TorrentControl

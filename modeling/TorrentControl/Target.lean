import TorrentControl.Number.Decimal

/-! # Targets

A command is aimed at a target: at nothing, at an entity of a download, or at two downloads. Entities
are named by handles. A handle is the slot and generation of a download and, for its parts, a
position; it does not promise that anything is there. -/

namespace TorrentControl

/-- What a command operates on, in increasing order. The first two kinds take any target. -/
inductive TargetKind where
  | generic
  | any
  | download
  | peer
  | tracker
  | file
  | fileIterator
  | downloadPair
deriving DecidableEq, Repr

namespace TargetKind

def name : TargetKind → String
  | .generic => "generic"
  | .any => "any"
  | .download => "download"
  | .peer => "peer"
  | .tracker => "tracker"
  | .file => "file"
  | .fileIterator => "file_iterator"
  | .downloadPair => "download_pair"

def all : List TargetKind :=
  [.generic, .any, .download, .peer, .tracker, .file, .fileIterator, .downloadPair]

def rank (k : TargetKind) : Nat :=
  all.idxOf k

def order (a b : TargetKind) : Ordering :=
  compare a.rank b.rank

/-- Whether a command of this kind accepts every target. -/
def isUntyped (k : TargetKind) : Bool :=
  k.rank ≤ TargetKind.any.rank

end TargetKind

/-! ## Handles -/

structure DownloadId where
  slot : UInt32
  generation : UInt32
deriving DecidableEq, Repr

structure FileRef where
  download : DownloadId
  index : Nat
deriving DecidableEq, Repr

/-- A cursor over the files of a download. -/
structure FileCursor where
  download : DownloadId
  position : Nat
deriving DecidableEq, Repr

structure PeerRef where
  download : DownloadId
  index : Nat
deriving DecidableEq, Repr

structure TrackerRef where
  download : DownloadId
  index : Nat
deriving DecidableEq, Repr

def DownloadId.name (id : DownloadId) : String :=
  "download#" ++ toString id.slot.toNat ++ "." ++ toString id.generation.toNat

def FileCursor.current (cursor : FileCursor) : FileRef :=
  ⟨cursor.download, cursor.position⟩

inductive Entity where
  | download (id : DownloadId)
  | file (ref : FileRef)
  | cursor (ref : FileCursor)
  | peer (ref : PeerRef)
  | tracker (ref : TrackerRef)
deriving DecidableEq, Repr

namespace Entity

def kind : Entity → TargetKind
  | .download _ => .download
  | .file _ => .file
  | .cursor _ => .fileIterator
  | .peer _ => .peer
  | .tracker _ => .tracker

/-- The download that the entity is or belongs to. -/
def owner : Entity → DownloadId
  | .download id => id
  | .file ref => ref.download
  | .cursor ref => ref.download
  | .peer ref => ref.download
  | .tracker ref => ref.download

def name : Entity → String
  | .download id => id.name
  | .file ref => ref.download.name ++ "/file#" ++ toString ref.index
  | .cursor ref => ref.download.name ++ "/cursor@" ++ toString ref.position
  | .peer ref => ref.download.name ++ "/peer#" ++ toString ref.index
  | .tracker ref => ref.download.name ++ "/tracker#" ++ toString ref.index

end Entity

/-! ## Targets -/

inductive Target where
  | unbound (kind : TargetKind)
  | entity (e : Entity)
  | pair (first second : DownloadId)
deriving DecidableEq, Repr

namespace Target

/-- The target that names nothing and asks for nothing. -/
def generic : Target :=
  .unbound .generic

def download (id : DownloadId) : Target :=
  .entity (.download id)

def file (ref : FileRef) : Target :=
  .entity (.file ref)

def peer (ref : PeerRef) : Target :=
  .entity (.peer ref)

def tracker (ref : TrackerRef) : Target :=
  .entity (.tracker ref)

def kind : Target → TargetKind
  | .unbound kind => kind
  | .entity e => e.kind
  | .pair _ _ => .downloadPair

def primary : Target → Option Entity
  | .unbound _ => none
  | .entity e => some e
  | .pair first _ => some (.download first)

def secondary : Target → Option Entity
  | .pair _ second => some (.download second)
  | _ => none

def entityName : Option Entity → String
  | none => "none"
  | some e => e.kind.name ++ ":" ++ e.name ++ ":" ++ e.owner.name

/-- The kind of the target, its first entity and its second, with bars between them. -/
def description (t : Target) : String :=
  t.kind.name ++ "|" ++ entityName t.primary ++ "|" ++ entityName t.secondary

end Target

end TorrentControl

import TorrentControl.Session.Download

/-! # Sessions

The downloads that commands operate on, in the order in which they were added. A download lives in a
slot. When it is removed, its slot moves on to the next generation and may be used again, so that
handles of the removed download name nothing, and not the download that comes after it. -/

namespace TorrentControl

structure Slot where
  generation : UInt32
  download : Option Download
deriving DecidableEq

structure Session where
  slots : List Slot
  /-- The slots that are free, the one freed last in front. -/
  free : List UInt32
  order : List DownloadId
deriving DecidableEq

namespace Session

def empty : Session :=
  ⟨[], [], []⟩

/-! ## Looking up -/

def get? (s : Session) (id : DownloadId) : Option Download := do
  let slot ← s.slots[id.slot.toNat]?
  if slot.generation = id.generation then slot.download else none

def contains (s : Session) (id : DownloadId) : Bool :=
  (s.get? id).isSome

def ids (s : Session) : List DownloadId :=
  s.order

def toList (s : Session) : List (DownloadId × Download) :=
  s.order.filterMap fun id => (s.get? id).map fun d => (id, d)

def size (s : Session) : Nat :=
  s.order.length

def isEmpty (s : Session) : Bool :=
  s.order.isEmpty

def findByHash? (s : Session) (hash : Digest) : Option DownloadId :=
  (s.toList.find? fun entry => entry.2.infoHash == hash).map Prod.fst

/-- Looks up a hash in hexadecimal digits of either case. -/
def findByHex? (s : Session) (hex : String) : Option DownloadId :=
  (Digest.ofHex? hex).bind s.findByHash?

/-! ## Changing -/

/-- Puts a download into a new slot behind all others. -/
def append (s : Session) (d : Download) : DownloadId × Session :=
  (⟨UInt32.ofNat (min s.slots.length 4294967295), 0⟩,
    { s with slots := s.slots ++ [⟨0, some d⟩] })

/-- Puts a download into a slot that is there. -/
def refill (s : Session) (index : UInt32) (d : Download) : DownloadId × Session :=
  match s.slots[index.toNat]? with
  | some slot =>
    (⟨index, slot.generation⟩,
      { s with slots := s.slots.set index.toNat { slot with download := some d } })
  | none => s.append d

/-- Adds a download, in the slot freed last if there is one. -/
def insert (s : Session) (d : Download) : DownloadId × Session :=
  let (id, s) := match s.free with
    | [] => s.append d
    | index :: free => { s with free }.refill index d
  (id, { s with order := s.order ++ [id] })

/-- Removes a download and answers it; a stale handle removes nothing. -/
def remove (s : Session) (id : DownloadId) : Option (Download × Session) := do
  let d ← s.get? id
  return (d, {
    slots := s.slots.set id.slot.toNat ⟨id.generation + 1, none⟩
    free := id.slot :: s.free
    order := s.order.filter (· != id) })

/-- Puts another download in the place of one; a stale handle changes nothing. -/
def replace (s : Session) (id : DownloadId) (d : Download) : Session :=
  if s.contains id then { s with slots := s.slots.set id.slot.toNat ⟨id.generation, some d⟩ } else s

/-! ## Handles -/

/-- The download of a handle, or the error of a stale one. -/
def download (s : Session) (id : DownloadId) : Except CommandError Download :=
  match s.get? id with
  | some d => .ok d
  | none => .error (.stale (.download id))

def file (s : Session) (ref : FileRef) : Except CommandError File := do
  match (← s.download ref.download).files.files[ref.index]? with
  | some file => return file
  | none => throw (.stale (.file ref))

def peer (s : Session) (ref : PeerRef) : Except CommandError Peer := do
  match (← s.download ref.download).peers[ref.index]? with
  | some peer => return peer
  | none => throw (.stale (.peer ref))

def tracker (s : Session) (ref : TrackerRef) : Except CommandError Tracker := do
  match (← s.download ref.download).trackers.trackers[ref.index]? with
  | some tracker => return tracker
  | none => throw (.stale (.tracker ref))

end Session

end TorrentControl

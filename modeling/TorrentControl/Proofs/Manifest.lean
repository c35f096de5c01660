import TorrentControl.Proofs.Outcome
import TorrentControl.Session.Manifest

/-! # What a manifest describes

A download is built in three steps. The texts of the description are read, with a default for each
one that is absent; the fields of the download are laid out; and its state is seeded. Only the first
step meets errors of the description. -/

namespace TorrentControl.DownloadManifest

/-! ## The steps -/

/-- What the texts of a description say. -/
structure Reading where
  infoHash : Digest
  localId : Digest
  peers : List Peer
  bitfield : List UInt8
  connection : ConnectionType

/-- Reads the local id, which is zero if it is absent. -/
def readLocalId (m : DownloadManifest) : Except ManifestError Digest :=
  match m.localId with
  | none => .ok .zero
  | some digits => readDigest m.name .localId digits

/-- Reads the bitfield, which is empty if it is absent. -/
def readBitfield (m : DownloadManifest) : Except ManifestError (List UInt8) :=
  match m.bitfield with
  | none => .ok []
  | some digits =>
    match Text.Hex.decode digits with
    | some bytes => .ok bytes
    | none => .error (.invalidBitfield m.name digits)

/-- Reads the connection type, which is that of a leech if it is absent. -/
def readConnection (m : DownloadManifest) : Except ManifestError ConnectionType :=
  match m.connection with
  | none => .ok .leech
  | some name =>
    match ConnectionType.ofName? name with
    | some connection => .ok connection
    | none => .error (.unknownConnection m.name name)

def read (m : DownloadManifest) : Except ManifestError Reading := do
  let infoHash ← readDigest m.name .hash m.hash
  let localId ← m.readLocalId
  let peers ← m.peers.mapM fun peer => peer.build m.name
  let bitfield ← m.readBitfield
  let connection ← m.readConnection
  return { infoHash, localId, peers, bitfield, connection }

/-- The download with the fields that are described, and a fresh state. -/
def layOut (m : DownloadManifest) (said : Reading) : Download :=
  let fresh := Download.fresh m.name said.infoHash
  { fresh with
    localId := said.localId
    files := { fresh.files with
      directory := m.directory
      isMultiFile := m.isMultiFile
      chunkSize := m.chunkSize.getD fresh.files.chunkSize
      files := m.files.map FileManifest.build }
    peers := said.peers
    trackers := { fresh.trackers with trackers := m.trackers.map TrackerManifest.build }
    bitfield := said.bitfield
    isPexEnabled := !m.isPexDisabled
    isPrivate := m.isPrivate
    isActive := m.isActive
    isOpen := m.isActive
    priority := m.priority.getD fresh.priority
    connection := said.connection
    up := { fresh.up with total := m.upTotal }
    bytesDone := m.bytesDone
    creationDate := m.creationDate
    peersAccounted := Number.Word.ofCount said.peers.length
    peersComplete := Number.Word.ofCount
      (said.peers.countP fun peer => decide (100 ≤ peer.completedPercent.toInt)) }

/-- Seeds the state of a download that is laid out. -/
def finish (m : DownloadManifest) (start : Download) : Except ManifestError Download :=
  match m.seed.run.run start with
  | (.ok (), seeded) => .ok seeded
  | (.error source, _) => .error (.state m.name source)

/-- **A download is built by reading, laying out and seeding.** -/
theorem build_eq (m : DownloadManifest) :
    m.build = m.read >>= fun said => m.finish (m.layOut said) := by
  simp only [read, bind_assoc, pure_bind]
  unfold build
  refine congrArg (_ >>= ·) (funext fun infoHash => ?_)
  extract_lets fresh files trackers up withId
  have hid (localId : Digest) : withId localId = (do
      let peers ← m.peers.mapM fun peer => peer.build m.name
      let bitfield ← m.readBitfield
      let connection ← m.readConnection
      m.finish (m.layOut ⟨infoHash, localId, peers, bitfield, connection⟩)) := by
    refine congrArg (_ >>= ·) (funext fun peers => ?_)
    extract_lets withBitfield
    have hbitfield (bitfield : List UInt8) : withBitfield bitfield = (do
        let connection ← m.readConnection
        m.finish (m.layOut ⟨infoHash, localId, peers, bitfield, connection⟩)) := by
      dsimp -zeta only [withBitfield]
      extract_lets withConnection
      have hconnection (connection : ConnectionType) : withConnection connection =
          m.finish (m.layOut ⟨infoHash, localId, peers, bitfield, connection⟩) := rfl
      unfold readConnection
      cases m.connection with
      | none => exact hconnection .leech
      | some name =>
        dsimp only
        cases ConnectionType.ofName? name with
        | none => rfl
        | some connection => exact hconnection connection
    unfold readBitfield
    cases m.bitfield with
    | none => exact hbitfield []
    | some digits =>
      dsimp only
      cases Text.Hex.decode digits with
      | none => rfl
      | some bytes => exact hbitfield bytes
  unfold readLocalId
  cases m.localId with
  | none => exact hid .zero
  | some digits => exact congrArg (_ >>= ·) (funext hid)

/-! ## Descriptions that can be read -/

/-- What the description says, with the defaults of what it leaves out. -/
structure Says (m : DownloadManifest) (said : Reading) : Prop where
  infoHash : Digest.ofHex? m.hash = some said.infoHash
  localId : m.localId.elim (some .zero) Digest.ofHex? = some said.localId
  peers : (m.peers.mapM fun peer => peer.build m.name) = .ok said.peers
  bitfield : m.bitfield.elim (some []) Text.Hex.decode = some said.bitfield
  connection : m.connection.elim (some .leech) ConnectionType.ofName? = some said.connection

theorem readDigest_eq_ok_iff {download value : String} {field : DigestField} {digest : Digest} :
    readDigest download field value = .ok digest ↔ Digest.ofHex? value = some digest := by
  unfold readDigest
  cases Digest.ofHex? value <;> simp

theorem readLocalId_eq_ok_iff {m : DownloadManifest} {localId : Digest} :
    m.readLocalId = .ok localId ↔ m.localId.elim (some .zero) Digest.ofHex? = some localId := by
  unfold readLocalId
  cases m.localId with
  | none => simp
  | some digits => exact readDigest_eq_ok_iff

theorem readBitfield_eq_ok_iff {m : DownloadManifest} {bitfield : List UInt8} :
    m.readBitfield = .ok bitfield ↔ m.bitfield.elim (some []) Text.Hex.decode = some bitfield := by
  unfold readBitfield
  cases m.bitfield with
  | none => simp
  | some digits => cases hbytes : Text.Hex.decode digits <;> simp [hbytes]

theorem readConnection_eq_ok_iff {m : DownloadManifest} {connection : ConnectionType} :
    m.readConnection = .ok connection ↔
      m.connection.elim (some .leech) ConnectionType.ofName? = some connection := by
  unfold readConnection
  cases m.connection with
  | none => simp
  | some name => cases hname : ConnectionType.ofName? name <;> simp [hname]

theorem read_eq_ok_iff {m : DownloadManifest} {said : Reading} : m.read = .ok said ↔ m.Says said := by
  simp only [read, Outcome.bind_eq_ok_iff, readDigest_eq_ok_iff, readLocalId_eq_ok_iff,
    readBitfield_eq_ok_iff, readConnection_eq_ok_iff]
  constructor
  · rintro ⟨infoHash, hhash, localId, hid, peers, hpeers, bitfield, hbitfield, connection, hkind, ⟨⟩⟩
    exact ⟨hhash, hid, hpeers, hbitfield, hkind⟩
  · rintro ⟨hhash, hid, hpeers, hbitfield, hkind⟩
    exact ⟨_, hhash, _, hid, _, hpeers, _, hbitfield, _, hkind, rfl⟩

/-- **What is built is what the description says, laid out and seeded.** -/
theorem build_eq_ok_iff {m : DownloadManifest} {d : Download} : m.build = .ok d ↔
    ∃ said, m.Says said ∧ m.seed.run.run (m.layOut said) = (.ok (), d) := by
  simp only [build_eq, Outcome.bind_eq_ok_iff, read_eq_ok_iff]
  refine exists_congr fun said => and_congr_right fun _ => ?_
  unfold finish
  rcases m.seed.run.run (m.layOut said) with ⟨c | _, t⟩
  · exact ⟨nofun, nofun⟩
  · constructor
    · rintro ⟨⟩
      rfl
    · rintro ⟨⟩
      rfl

end TorrentControl.DownloadManifest

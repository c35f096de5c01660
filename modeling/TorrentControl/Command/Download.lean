import TorrentControl.Session.Download
import TorrentControl.Value.Argument

/-! # Commands on a download

What the commands read from a download, what they set on it, and the actions that take no argument.
Each is plain data with one meaning, so that a registry can hold it. -/

namespace TorrentControl

/-! ## Readings -/

inductive DownloadReading where
  | hash
  | localId
  | localIdHtml
  | basePath
  | baseFilename
  | name
  | bitfield
  | isOpen
  | isActive
  | isHashChecked
  | isHashChecking
  | isMultiFile
  | isPrivate
  | isPexActive
  | peersConnected
  | peersNotConnected
  | peersComplete
  | peersAccounted
  | upRate
  | upTotal
  | downRate
  | downTotal
  | skipRate
  | skipTotal
  | creationDate
  | bytesDone
  | ratio
  | chunksHashed
  | fileCount
  | sizeInBytes
  | sizeInChunks
  | completedBytes
  | completedChunks
  | leftBytes
  | chunkSize
  | trackerFocus
  | trackerCount
  | pexSize
  | maxPexSize
  | hasHashFailed
  | isPexEnabled
  | message
  | maxFileSize
  | peersMin
  | peersMax
  | uploadsMax
  | trackerNumWant
  | directory
  | priority
  | priorityName
  | connection
  | variableNamed (name : String)
deriving DecidableEq, Repr

/-- Letters, digits and a few marks stand for themselves in HTML and in URLs. -/
def isPlainHtml (b : UInt8) : Bool :=
  let c := Char.ofNat b.toNat
  c.isAlphanum || c == '-' || c == '_' || c == '.' || c == '~'

/-- Bytes as text, with a percent sign and two digits for those that are not plain. -/
def escapeHtml (bytes : List UInt8) : String :=
  String.ofList (bytes.flatMap fun b =>
    if isPlainHtml b then [Char.ofNat b.toNat] else '%' :: Text.Hex.encodeByte .upper b)

def DownloadReading.read (d : Download) : DownloadReading → Except CommandError Value
  | .hash => .ok (.text d.hashText)
  | .localId => .ok (.text (d.localId.toHex .upper))
  | .localIdHtml => .ok (.text (escapeHtml d.localId.bytes))
  | .basePath => .ok (.text d.basePath)
  | .baseFilename => .ok (.text d.baseFilename)
  | .name => .ok (.text d.name)
  | .bitfield => .ok (.text d.bitfieldText)
  | .isOpen => .ok (.ofBool d.isOpen)
  | .isActive => .ok (.ofBool d.isActive)
  | .isHashChecked => .ok (.ofBool d.isHashChecked)
  | .isHashChecking => .ok (.ofBool d.isHashChecking)
  | .isMultiFile => .ok (.ofBool d.files.isMultiFile)
  | .isPrivate => .ok (.ofBool d.isPrivate)
  | .isPexActive => .ok (.ofBool d.isPexActive)
  | .peersConnected => .ok (.ofCount d.peers.length)
  | .peersNotConnected => .ok (.ofCount d.pendingPeers.length)
  | .peersComplete => .ok (.int d.peersComplete)
  | .peersAccounted => .ok (.int d.peersAccounted)
  | .upRate => .ok (.int d.up.rate)
  | .upTotal => .ok (.int d.up.total)
  | .downRate => .ok (.int d.down.rate)
  | .downTotal => .ok (.int d.down.total)
  | .skipRate => .ok (.int d.skip.rate)
  | .skipTotal => .ok (.int d.skip.total)
  | .creationDate => .ok (.int d.creationDate)
  | .bytesDone => .ok (.int d.bytesDone)
  | .ratio => .ok (.int d.ratio)
  | .chunksHashed => .ok (.int d.chunksHashed)
  | .fileCount => .ok (.ofCount d.files.files.length)
  | .sizeInBytes => .ok (.int d.files.size)
  | .sizeInChunks => .ok (.int d.files.sizeInChunks)
  | .completedBytes => .ok (.int d.files.completedBytes)
  | .completedChunks => .ok (.int d.files.completedChunks)
  | .leftBytes => .ok (.int d.files.leftBytes)
  | .chunkSize => .ok (.int d.files.chunkSize)
  | .trackerFocus => .ok (.ofCount d.trackers.focus)
  | .trackerCount => .ok (.ofCount d.trackers.trackers.length)
  | .pexSize => .ok (.int d.pexSize)
  | .maxPexSize => .ok (.int d.maxPexSize)
  | .hasHashFailed => .ok (.ofBool d.hasHashFailed)
  | .isPexEnabled => .ok (.ofBool d.isPexEnabled)
  | .message => .ok (.text d.message)
  | .maxFileSize => .ok (.int d.files.maxFileSize)
  | .peersMin => .ok (.int d.peersMin)
  | .peersMax => .ok (.int d.peersMax)
  | .uploadsMax => .ok (.int d.uploadsMax)
  | .trackerNumWant => .ok (.int d.trackers.numWant)
  | .directory => .ok (.text d.files.directory)
  | .priority => .ok (.int d.priority)
  | .priorityName => .text <$> d.priorityName
  | .connection => .ok (.text d.connection.name)
  | .variableNamed key => d.stateVariable key

/-! ## Settings -/

inductive IntSetting where
  | hashFailed
  | peerExchange
  | maxFileSize
  | peersMin
  | peersMax
  | uploadsMax
  | trackerNumWant
  | priority
  | variableNamed (name : String)
deriving DecidableEq, Repr

inductive TextSetting where
  | message
  | directory
  | directoryBase
  | connection
  /-- Not a setting that is kept: the address joins those that wait. -/
  | addedPeer
  | variableNamed (name : String)
deriving DecidableEq, Repr

/-- The integer itself, if it is not negative. -/
def nonNegative (n : Int64) : Except CommandError Int64 :=
  if n.toInt < 0 then .error (.input (.negative n)) else .ok n

def IntSetting.assign (n : Int64) : IntSetting → Download.Edit Unit
  | .hashFailed => modify fun d => { d with hasHashFailed := n != 0 }
  | .peerExchange => Download.Edit.setPeerExchange (n != 0)
  | .maxFileSize => do
    let n ← Download.Edit.lift (nonNegative n)
    modify fun d => { d with files := { d.files with maxFileSize := n } }
  | .peersMin => do
    let n ← Download.Edit.lift (nonNegative n)
    modify fun d => { d with peersMin := n }
  | .peersMax => do
    let n ← Download.Edit.lift (nonNegative n)
    modify fun d => { d with peersMax := n }
  | .uploadsMax => do
    let n ← Download.Edit.lift (nonNegative n)
    modify fun d => { d with uploadsMax := n }
  | .trackerNumWant => modify fun d => { d with trackers := { d.trackers with numWant := n } }
  | .priority => do
    if n.toInt < 0 ∨ 3 < n.toInt then throw (.input .priorityOutOfRange)
    modify fun d => { d with priority := n }
  | .variableNamed key => Download.Edit.setVariable key (.int n)

def TextSetting.assign (s : String) : TextSetting → Download.Edit Unit
  | .message => modify fun d => { d with message := s }
  | .directory => Download.Edit.setDirectory s
  | .directoryBase => modify fun d => { d with files := { d.files with directory := s } }
  | .connection => do
    match ConnectionType.ofName? s with
    | some kind => modify fun d => { d with connection := kind }
    | none => throw (.input .unknownConnection)
  | .addedPeer => Download.Edit.addPeer s
  | .variableNamed key => Download.Edit.setVariable key (.text s)

/-! ## Actions -/

inductive DownloadAction where
  | resume
  | pause
  | openStorage
  | closeStorage
  | checkHash
deriving DecidableEq, Repr

def DownloadAction.act : DownloadAction → Download.Edit Unit
  | .resume => Download.Edit.resume
  | .pause => Download.Edit.pause
  | .openStorage => Download.Edit.openStorage
  | .closeStorage => Download.Edit.closeStorage
  | .checkHash => Download.Edit.checkHash

/-! ## Lists and custom fields -/

/-- What can be done with a list among the variables. -/
inductive ListOperation where
  | items
  | has
  | remove
  | push
  | pushUnique
deriving DecidableEq, Repr

/-- What an operation appends: a list of one item stands for the item, and all else for itself. -/
def appended : Value → Value
  | .list [item] => item
  | args => args

/-- Looks for the argument of the call among the items, or appends it. -/
def ListOperation.perform (name : String) (args : Value) :
    ListOperation → Download.Edit Value
  | .items => do
    let list ← Download.Edit.lift ((← get).stateVariable name)
    return .list (← Download.Edit.lift (CommandError.ofValue list.asList))
  | .has => do
    let list ← Download.Edit.lift ((← get).stateVariable name)
    return .ofBool (← Download.Edit.lift (CommandError.ofValue (list.contains args.argument)))
  | .remove => do
    Download.Edit.onVariable name fun list => Prod.snd <$> list.remove args.argument
    return .empty
  | .push => do
    Download.Edit.onVariable name fun list => list.push (appended args)
    return .empty
  | .pushUnique => do
    Download.Edit.onVariable name fun list => do
      if ← list.contains args.argument then return list else list.push (appended args)
    return .empty

/-- Reads the key and the text of a custom field from the first two items of a list. -/
def customArguments (args : Value) : Except CommandError (String × String) := do
  match ← CommandError.ofValue args.asList with
  | [] => throw (.missingArgument .customKey)
  | key :: rest =>
    let key ← CommandError.ofValue key.asText
    match rest with
    | [] => throw (.missingArgument .customValue)
    | text :: _ => return (key, ← CommandError.ofValue text.asText)

/-- Sets a custom field, in a fresh map if there is none. -/
def setCustom (key text : String) : Download.Edit Unit :=
  Download.Edit.onSection fun values => do
    let values ← values.insertKeyIfAbsent "custom" (.map [])
    let fields ← (← values.getKey "custom").insertKey key (.text text)
    values.replaceKey "custom" fields

end TorrentControl

import TorrentControl.CommandError
import TorrentControl.Session.File
import TorrentControl.Session.Peer

/-! # Downloads

A download with everything attached to it: its files, peers and trackers, its counters and settings,
and a tree of values that holds its variables, custom fields and views. An action on a download may
fail after it has changed something; what it changed stays changed. -/

namespace TorrentControl

inductive ConnectionType where
  | leech
  | seed
  | initialSeed
deriving DecidableEq, Repr

namespace ConnectionType

def name : ConnectionType → String
  | .leech => "leech"
  | .seed => "seed"
  | .initialSeed => "initial_seed"

def all : List ConnectionType :=
  [.leech, .seed, .initialSeed]

def ofName? (name : String) : Option ConnectionType :=
  all.find? fun c => c.name == name

end ConnectionType

structure Download where
  name : String
  infoHash : Digest
  /-- The peer id under which this client announces the download. -/
  localId : Digest
  files : FileList
  peers : List Peer
  /-- The addresses that wait for a connection. -/
  pendingPeers : List String
  trackers : TrackerList
  /-- Variables, custom fields and views, in the section `Download.sectionName`. -/
  state : Value
  /-- 0 is off, 1 is low, 2 is normal, 3 is high. -/
  priority : Int64
  message : String
  connection : ConnectionType
  isOpen : Bool
  isActive : Bool
  isHashChecked : Bool
  isHashChecking : Bool
  hasHashFailed : Bool
  isPrivate : Bool
  isPexActive : Bool
  isPexEnabled : Bool
  pexSize : Int64
  maxPexSize : Int64
  /-- One bit for each chunk, the first one highest. -/
  bitfield : List UInt8
  up : Transfer
  down : Transfer
  skip : Transfer
  bytesDone : Int64
  chunksHashed : Int64
  creationDate : Int64
  peersMin : Int64
  peersMax : Int64
  uploadsMax : Int64
  /-- How many peers have the whole payload. -/
  peersComplete : Int64
  peersAccounted : Int64
deriving DecidableEq

namespace Download

/-! ## Fresh downloads -/

def sectionName : String := "rtorrent"

def integerVariables : List String :=
  ["state", "complete", "mode", "hashing", "state_changed", "state_counter", "ignore_commands"]

/-- The variables that hold texts, with what they hold at first. -/
def textVariables : List (String × String) :=
  [("tied_to_file", ""), ("loaded_file", ""), ("throttle_name", ""), ("custom1", ""),
   ("custom2", ""), ("custom3", ""), ("custom4", ""), ("custom5", ""),
   ("connection_leech", "leech"), ("connection_seed", "seed")]

def initialSection : Value :=
  .map (KeyMap.ofList
    (integerVariables.map (fun name => (name, .int 0)) ++
      textVariables.map (fun entry => (entry.1, .text entry.2)) ++
      [("views", .list []), ("custom", .map [])]))

def initialState : Value :=
  .map [(sectionName, initialSection)]

/-- A closed, inactive download without files, peers and trackers. -/
def fresh (name : String) (infoHash : Digest) : Download :=
  { name
    infoHash
    localId := .zero
    files := .empty
    peers := []
    pendingPeers := []
    trackers := .empty
    state := initialState
    priority := 2
    message := ""
    connection := .leech
    isOpen := false
    isActive := false
    isHashChecked := false
    isHashChecking := false
    hasHashFailed := false
    isPrivate := false
    isPexActive := false
    isPexEnabled := true
    pexSize := 0
    maxPexSize := 8
    bitfield := []
    up := .zero
    down := .zero
    skip := .zero
    bytesDone := 0
    chunksHashed := 0
    creationDate := 0
    peersMin := 40
    peersMax := 100
    uploadsMax := 15
    peersComplete := 0
    peersAccounted := 0 }

/-! ## Readings -/

def hashText (d : Download) : String :=
  d.infoHash.toHex .upper

def bitfieldText (d : Download) : String :=
  Text.Hex.encode .upper d.bitfield

/-- The upload ratio in thousandths. It is zero during verification and before anything is done. -/
def ratio (d : Download) : Int64 :=
  if d.isHashChecking ∨ d.bytesDone.toInt ≤ 0 then 0
  else
    let scaled := Number.Word.clamp (d.up.total.toInt * 1000)
    Number.Word.clamp (scaled.toInt.tdiv d.bytesDone.toInt)

def priorityName (d : Download) : Except CommandError String :=
  if d.priority = 0 then .ok "off"
  else if d.priority = 1 then .ok "low"
  else if d.priority = 2 then .ok "normal"
  else if d.priority = 3 then .ok "high"
  else .error (.input .priorityOutOfRange)

/-! ## Paths -/

/-- A path below a directory, with one slash between them unless the directory ends in one. -/
def joinPath (directory path : String) : String :=
  if directory = "" then path
  else if directory.toList.getLast? = some '/' then directory ++ path
  else directory ++ "/" ++ path

/-- The path of the payload: the directory itself for several files, and otherwise that of the one
file. -/
def basePath (d : Download) : String :=
  if d.files.isMultiFile then d.files.directory
  else
    match d.files.files with
    | [] => ""
    | file :: _ => joinPath d.files.directory file.pathText

/-- The characters after the last slash. -/
def afterLastSlash (cs : List Char) : List Char :=
  (Text.split '/' cs).getLast?.getD []

def baseFilename (d : Download) : String :=
  String.ofList (afterLastSlash d.basePath.toList)

/-! ## Variables -/

def stateSection (d : Download) : Except CommandError Value :=
  CommandError.ofValue (d.state.getKey sectionName)

def stateVariable (d : Download) (name : String) : Except CommandError Value := do
  CommandError.ofValue ((← d.stateSection).getKey name)

/-- Whether the download takes no part in commands that only try. -/
def ignoresCommands (d : Download) : Except CommandError Bool := do
  let flag ← CommandError.ofValue (← d.stateVariable "ignore_commands").asInt
  return flag != 0

/-- A custom field, if it is there and is a text. -/
def customField? (d : Download) (key : String) : Option String :=
  match (do let fields ← d.stateVariable "custom"
            let field ← CommandError.ofValue (fields.getKey key)
            CommandError.ofValue field.asText) with
  | .ok s => some s
  | .error _ => none

/-! ## Actions -/

/-- An action on a download. What it changed before it failed stays changed. -/
abbrev Edit (α : Type) := ExceptT CommandError (StateM Download) α

namespace Edit

def lift {α : Type} (r : Except CommandError α) : Edit α :=
  ExceptT.mk (pure r)

/-- Replaces the section of the state by what a function of values makes of it. -/
def onSection (change : Value → Except ValueError Value) : Edit Unit := do
  let d ← get
  let old ← lift d.stateSection
  let new ← lift (CommandError.ofValue (change old))
  let state ← lift (CommandError.ofValue (d.state.replaceKey sectionName new))
  set { d with state }

def setVariable (name : String) (v : Value) : Edit Unit :=
  onSection fun values => values.insertKey name v

/-- Replaces a variable that is there already. -/
def onVariable (name : String) (change : Value → Except ValueError Value) : Edit Unit :=
  onSection fun values => do
    let new ← change (← values.getKey name)
    values.replaceKey name new

/-- Writes the variable `state` and counts the change. -/
def enterState (state : Int64) : Edit Unit := do
  setVariable "state" (.int state)
  onSection fun values => do
    let counter ← (← values.getKey "state_counter").asInt
    values.insertKey "state_counter" (.int (Number.Word.clamp (counter.toInt + 1)))

def resume : Edit Unit := do
  modify fun d => { d with isOpen := true, isActive := true }
  enterState 1

def pause : Edit Unit := do
  modify fun d => { d with isActive := false }
  enterState 0

def openStorage : Edit Unit :=
  modify fun d => { d with isOpen := true }

def closeStorage : Edit Unit := do
  if (← get).isActive then throw (.input .closeWhileActive)
  modify fun d => { d with isOpen := false }

/-- Verifies the payload at once. -/
def checkHash : Edit Unit := do
  if (← get).isActive then throw (.input .checkWhileActive)
  modify fun d => { d with
    isHashChecking := false
    isHashChecked := true
    hasHashFailed := false
    chunksHashed := d.files.sizeInChunks
    bytesDone := d.files.completedBytes }

/-- Turns peer exchange on or off. Turned off, it also stops. -/
def setPeerExchange (enabled : Bool) : Edit Unit :=
  modify fun d => { d with
    isPexEnabled := enabled
    isPexActive := if enabled then d.isPexActive else false }

/-- Several files go into a directory with the name of the download. -/
def setDirectory (directory : String) : Edit Unit :=
  modify fun d => { d with files := { d.files with
    directory := if d.files.isMultiFile then joinPath directory d.name else directory } }

end Edit

/-! ## Peer addresses -/

def standardPeerPort : Int64 := 6881

/-- Reads `host` or `host:port`. The port is read before the host is looked at. -/
def readPeerAddress (address : String) : Except CommandError (String × Int64) := do
  let (host, portText) := Text.splitFirst ':' address.toList
  let port ← match portText with
    | none => pure standardPeerPort
    | some text =>
      match Number.Decimal.readWord? text with
      | some port => pure port
      | none => throw (.input .unreadableHost)
  if host = [] then throw (.input .unreadableHost)
  if 1 ≤ port.toInt ∧ port.toInt ≤ 65535 then return (String.ofList host, port)
  throw (.input .invalidPort)

/-- Queues an address for connection. -/
def Edit.addPeer (address : String) : Edit Unit := do
  if (← get).isPrivate then throw (.input .privateDownload)
  let (host, port) ← lift (readPeerAddress address)
  let queued := host ++ ":" ++ Number.Decimal.writeWord port
  modify fun d => { d with pendingPeers := d.pendingPeers ++ [queued] }

end Download

end TorrentControl

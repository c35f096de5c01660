import TorrentControl.Session.File
import TorrentControl.Text.Utf8

/-! # The disk

The files that commands and the daemon touch: a tree of directories, regular files, devices, sockets
and symbolic links. A path is walked from the root or from the working directory, and every
component but the last must be a directory or lead to one. -/

namespace TorrentControl

/-- Who answers at a socket on the disk. -/
inductive SocketState where
  | listening
  | abandoned
  | datagram
deriving DecidableEq, Repr

inductive DiskNode where
  /-- A sealed directory takes no new entries. -/
  | directory (isSealed : Bool)
  | file (content : List UInt8)
  | device
  | socket (state : SocketState)
  | link (target : String)
deriving DecidableEq, Repr

inductive DiskError where
  | notFound
  | denied
  | alreadyExists
  | notDirectory
  | isDirectory
  | nameTooLong
  | tooManyLinks
  | wrongSocketType
  | addressInUse
  | refused
  | nulByte
  | notText
  | socketPathTooLong
deriving DecidableEq, Repr

def DiskError.message : DiskError → String
  | .notFound => "No such file or directory (os error 2)"
  | .denied => "Permission denied (os error 13)"
  | .alreadyExists => "File exists (os error 17)"
  | .notDirectory => "Not a directory (os error 20)"
  | .isDirectory => "Is a directory (os error 21)"
  | .nameTooLong => "File name too long (os error 36)"
  | .tooManyLinks => "Too many levels of symbolic links (os error 40)"
  | .wrongSocketType => "Protocol wrong type for socket (os error 91)"
  | .addressInUse => "Address already in use (os error 98)"
  | .refused => "Connection refused (os error 111)"
  | .nulByte => "file name contained an unexpected NUL byte"
  | .notText => "stream did not contain valid UTF-8"
  | .socketPathTooLong => "path must be shorter than SUN_LEN"

/-- The nodes below the root, each under the components of its path. -/
structure Disk where
  nodes : List (List String × DiskNode)
  /-- Where relative paths start. -/
  workingDirectory : List String
deriving DecidableEq, Repr

namespace Disk

def empty : Disk :=
  ⟨[], []⟩

def node? (disk : Disk) (path : List String) : Option DiskNode :=
  if path = [] then some (.directory false)
  else (disk.nodes.find? fun entry => entry.1 == path).map Prod.snd

/-- Puts a node at a place, whatever is there. -/
def put (disk : Disk) (path : List String) (node : DiskNode) : Disk :=
  { disk with nodes := (path, node) :: disk.nodes.filter fun entry => entry.1 != path }

def drop (disk : Disk) (path : List String) : Disk :=
  { disk with nodes := disk.nodes.filter fun entry => entry.1 != path }

/-! ## Paths -/

/-- The components of a path. Empty ones and single points stay where they are and are left out. -/
def components (path : String) : List String :=
  ((Text.split '/' path.toList).map String.ofList).filter fun name => name ≠ "" ∧ name ≠ "."

def isAbsolute (path : String) : Bool :=
  path.toList.head? == some '/'

/-- Whether the path can only name a directory. -/
def endsInSlash (path : String) : Bool :=
  path.toList.getLast? == some '/'

/-- Whether a piece between slashes leads nowhere. -/
def isIdle (piece : List Char) : Bool :=
  piece == [] || piece == ['.']

def dropIdle (pieces : List (List Char)) : List (List Char) :=
  (pieces.reverse.dropWhile isIdle).reverse

/-- The path of the directory that a path lies in, as it is written in the path. The root lies in
none. A point counts only at the start of a path. -/
def parent? (path : String) : Option String :=
  let pieces := Text.split '/' path.toList
  let start := pieces.headD []
  match dropIdle pieces.tail with
  | [] => if start = [] then none else some ""
  | body =>
    match dropIdle body.dropLast with
    | [] => some (if start = [] then "/" else String.ofList start)
    | rest => some ("/".intercalate ((start :: rest).map String.ofList))

def byteSize (s : String) : Nat :=
  Text.Utf8.byteLength s.toList

def greatestName : Nat := 255

def greatestPath : Nat := 4095

/-- Walks on from a place. Links are followed, the last one only if `through` says so, and `links`
bounds how many. The result is the place that the path names, where nothing needs to be yet. -/
def walk (disk : Disk) (through : Bool) :
    Nat → List String → List String → Except DiskError (List String)
  | _, place, [] => .ok place
  | links, place, name :: rest =>
    if name = ".." then walk disk through links place.dropLast rest
    else if greatestName < byteSize name then .error .nameTooLong
    else
      let here := place ++ [name]
      match disk.node? here with
      | none => if rest = [] then .ok here else .error .notFound
      | some (.directory _) => walk disk through links here rest
      | some (.link target) =>
        if rest = [] ∧ !through then .ok here
        else
          match links with
          | 0 => .error .tooManyLinks
          | links + 1 =>
            walk disk through links (if isAbsolute target then [] else place)
              (components target ++ rest)
      | some _ => if rest = [] then .ok here else .error .notDirectory
termination_by links _ todo => (links, todo.length)

/-- The place that a path names. -/
def locate (disk : Disk) (through : Bool) (path : String) : Except DiskError (List String) := do
  if path.toList.contains '\x00' then throw .nulByte
  if path = "" then throw .notFound
  if greatestPath < byteSize path then throw .nameTooLong
  let start := if isAbsolute path then [] else disk.workingDirectory
  let place ← disk.walk through 40 start (components path)
  match disk.node? place with
  | some (.directory _) | none => return place
  | some _ => if endsInSlash path then throw .notDirectory else return place

/-! ## Operations -/

/-- What is at a path; a link is not followed. -/
def inspect (disk : Disk) (path : String) : Except DiskError DiskNode := do
  match disk.node? (← disk.locate false path) with
  | some node => return node
  | none => throw .notFound

def exists? (disk : Disk) (path : String) : Bool :=
  (disk.inspect path).toOption.isSome

def readFile (disk : Disk) (path : String) : Except DiskError (List UInt8) := do
  match disk.node? (← disk.locate true path) with
  | some (.file content) => return content
  | some .device => return []
  | some (.directory _) => throw .isDirectory
  | some _ => throw .notFound
  | none => throw .notFound

/-- Reads a file that must be UTF-8. -/
def readText (disk : Disk) (path : String) : Except DiskError String := do
  match Text.Utf8.decodeStrict (← disk.readFile path) with
  | (cs, true) => return String.ofList cs
  | (_, false) => throw .notText

/-- Removes what is not a directory; a link is removed itself. -/
def unlink (disk : Disk) (path : String) : Except DiskError Disk := do
  let place ← disk.locate false path
  match disk.node? place with
  | some (.directory _) => throw .isDirectory
  | some _ => return disk.drop place
  | none => throw .notFound

/-- The directory that holds a place takes a new entry there. -/
def addEntry (disk : Disk) (place : List String) (node : DiskNode) : Except DiskError Disk :=
  match disk.node? place.dropLast with
  | some (.directory false) => .ok (disk.put place node)
  | some (.directory true) => .error .denied
  | some _ => .error .notDirectory
  | none => .error .notFound

/-- Goes down from a place and creates the directories that are missing. -/
def descend (disk : Disk) : List String → List String → Except DiskError Disk
  | _, [] => .ok disk
  | place, name :: rest => do
    let here ← disk.walk true 40 place [name]
    match disk.node? here with
    | some (.directory _) => descend disk here rest
    | some _ => throw (if rest = [] then .alreadyExists else .notDirectory)
    | none => descend (← disk.addEntry here (.directory false)) here rest

/-- Creates a directory with all that are missing above it. -/
def createDirectories (disk : Disk) (path : String) : Except DiskError Disk := do
  if path.toList.contains '\x00' then throw .nulByte
  if greatestPath < byteSize path then throw .nameTooLong
  disk.descend (if isAbsolute path then [] else disk.workingDirectory) (components path)

/-! ## Sockets -/

def greatestSocketPath : Nat := 107

def checkSocketPath (path : String) : Except DiskError Unit :=
  if path.toList.contains '\x00' then .error .nulByte
  else if greatestSocketPath < byteSize path then .error .socketPathTooLong
  else .ok ()

/-- Knocks at a socket. -/
def connect (disk : Disk) (path : String) : Except DiskError Unit := do
  checkSocketPath path
  match disk.node? (← disk.locate true path) with
  | some (.socket .listening) => return ()
  | some (.socket .datagram) => throw .wrongSocketType
  | some _ => throw .refused
  | none => throw .notFound

/-- Creates a socket that is listened on. Nothing may be at its path before. -/
def bindSocket (disk : Disk) (path : String) : Except DiskError Disk := do
  checkSocketPath path
  let place ← disk.locate false path
  match disk.node? place with
  | some _ => throw .addressInUse
  | none => disk.addEntry place (.socket .listening)

end Disk

end TorrentControl

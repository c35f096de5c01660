import TorrentControl.Command.Download
import TorrentControl.Command.Part

/-! # Callables

A callable is what an entry of the registry runs, as plain data. Each is made for one kind of target.
Aiming a callable at a target gives an invocation, which has exactly the entities that the callable
needs. -/

namespace TorrentControl

/-- The parts of a download that a multicall can go through. -/
inductive Part where
  | files
  | peers
  | trackers
deriving DecidableEq, Repr

/-- What a command of a host program does when it runs. It is given the target that it was aimed at
and the arguments of the call. -/
inductive HostAction where
  /-- Answers the arguments. -/
  | echo
  /-- Answers the description of the target. -/
  | describe
  | constant (v : Value)
  /-- Removes a key from the registry and answers whether it was there. -/
  | erase (key : String)
  /-- Calls another key with the same target and arguments. -/
  | forward (key : String)
  | fail (e : CommandError)
deriving DecidableEq

inductive GenericCommand where
  | downloadList
  | multicall
  | print
  | insertMethod
  | aliasMethod
  | eraseMethod
  | existsMethod
deriving DecidableEq, Repr

inductive DownloadCommand where
  | read (reading : DownloadReading)
  | setInt (setting : IntSetting)
  | setText (setting : TextSetting)
  | act (action : DownloadAction)
  | list (name : String) (operation : ListOperation)
  | setCustom
  /-- A missing field is the empty text. -/
  | custom
  /-- A missing field is an error. -/
  | customOrFail
  | erase
  | deleteTied
  | tryStart
  | tryStop
  | tryClose
  | multicall (part : Part)
deriving DecidableEq, Repr

inductive PeerCommand where
  | read (reading : PeerReading)
deriving DecidableEq, Repr

inductive TrackerCommand where
  | read (reading : TrackerReading)
  | setEnabled
deriving DecidableEq, Repr

inductive FileCommand where
  | read (reading : FileReading)
  | setPriority
deriving DecidableEq, Repr

inductive CursorCommand where
  | read (reading : CursorReading)
deriving DecidableEq, Repr

/-- What a comparison of two downloads answers. -/
inductive PairCommand where
  | less
  | greater
  | compare
deriving DecidableEq, Repr

inductive Callable where
  /-- Runs a script against the target, whatever it is, and takes no arguments. -/
  | script (text : String)
  | generic (command : GenericCommand)
  | download (command : DownloadCommand)
  | peer (command : PeerCommand)
  | tracker (command : TrackerCommand)
  | file (command : FileCommand)
  | cursor (command : CursorCommand)
  | pair (command : PairCommand)
  /-- A command of a host program, made for targets of the given kind. -/
  | hosted (kind : TargetKind) (action : HostAction)
deriving DecidableEq

def Callable.kind : Callable → TargetKind
  | .script _ => .any
  | .generic _ => .generic
  | .download _ => .download
  | .peer _ => .peer
  | .tracker _ => .tracker
  | .file _ => .file
  | .cursor _ => .fileIterator
  | .pair _ => .downloadPair
  | .hosted kind _ => kind

/-! ## Aiming -/

/-- A callable together with the entities that it runs on. -/
inductive Invocation where
  | script (text : String) (target : Target)
  | generic (command : GenericCommand)
  | download (command : DownloadCommand) (id : DownloadId)
  | peer (command : PeerCommand) (ref : PeerRef)
  | tracker (command : TrackerCommand) (ref : TrackerRef)
  | file (command : FileCommand) (ref : FileRef)
  | cursor (command : CursorCommand) (ref : FileCursor)
  | pair (command : PairCommand) (first second : DownloadId)
  | hosted (action : HostAction) (target : Target)
deriving DecidableEq

/-- What a callable of a kind sees of a target. A target without an entity is as good as generic for
the kinds that take any target, and is refused by the others. A file cursor stands for the file that
it points at. -/
def effectiveTarget (session : Session) (key : String) (kind : TargetKind) (target : Target) :
    Except CommandError Target :=
  match target with
  | .unbound actual =>
    if kind.isUntyped then .ok .generic else .error (.targetMismatch key kind actual)
  | target =>
    if kind.isUntyped ∨ kind = target.kind then .ok target
    else
      match kind, target with
      | .file, .entity (.cursor ref) => do
        let d ← session.download ref.download
        if ref.position < d.files.files.length then return .file ref.current
        throw (.stale (.cursor ref))
      | _, _ => .error (.targetMismatch key kind target.kind)

/-- The target that a command of a host program is given. -/
def hostTarget (kind : TargetKind) (target : Target) : Target :=
  match kind with
  | .generic => .generic
  | _ => target

/-- The invocation of a callable on a target of its kind. -/
def Callable.on (callable : Callable) (target : Target) : Option Invocation :=
  match callable, target with
  | .script text, target => some (.script text target)
  | .generic command, _ => some (.generic command)
  | .download command, .entity (.download id) => some (.download command id)
  | .peer command, .entity (.peer ref) => some (.peer command ref)
  | .tracker command, .entity (.tracker ref) => some (.tracker command ref)
  | .file command, .entity (.file ref) => some (.file command ref)
  | .cursor command, .entity (.cursor ref) => some (.cursor command ref)
  | .pair command, .pair first second => some (.pair command first second)
  | .hosted kind action, target => some (.hosted action (hostTarget kind target))
  | _, _ => none

/-- Aims a callable at a target. -/
def Callable.aim (callable : Callable) (session : Session) (key : String) (target : Target) :
    Except CommandError Invocation := do
  let effective ← effectiveTarget session key callable.kind target
  match callable.on effective with
  | some invocation => return invocation
  | none => throw (.targetMismatch key callable.kind effective.kind)

end TorrentControl

import TorrentControl.Disk
import TorrentControl.MessageLog
import TorrentControl.Registry

/-! # The engine

The state that commands run on, and the monad that they run in. A run answers a value or halts: with
the error of a command, or because commands called each other by key without an end in sight. What
it changed before it halted stays changed. -/

namespace TorrentControl

structure Engine where
  commands : Registry
  session : Session
  messages : MessageLog
  /-- Where the files are that downloads are tied to. -/
  disk : Disk
deriving DecidableEq

/-- An engine without commands. -/
def Engine.bare (session : Session) (disk : Disk) : Engine :=
  ⟨.empty, session, .empty, disk⟩

inductive Halt where
  | failed (e : CommandError)
  /-- Calls by key were nested more deeply than a run may go. -/
  | overrun
deriving DecidableEq, Repr

abbrev Run (α : Type) := ExceptT Halt (StateM Engine) α

namespace Run

def fail {α : Type} (e : CommandError) : Run α :=
  throw (.failed e)

def lift {α : Type} : Except CommandError α → Run α
  | .ok a => pure a
  | .error e => fail e

/-! ## Entities -/

def session : Run Session :=
  return (← get).session

/-- The download of a handle that is not stale. -/
def download (id : DownloadId) : Run Download := do
  lift ((← session).download id)

/-- Acts on a download. -/
def onDownload {α : Type} (id : DownloadId) (edit : Download.Edit α) : Run α := do
  let (result, changed) := edit.run.run (← download id)
  modify fun e => { e with session := e.session.replace id changed }
  lift result

def removeDownload (id : DownloadId) : Run Unit := do
  match (← session).remove id with
  | some (_, remaining) => modify fun e => { e with session := remaining }
  | none => fail (.stale (.download id))

/-! ## Messages and the registry -/

def report (message : String) : Run Unit :=
  modify fun e => { e with messages := e.messages.push message }

def resolve (key : String) : Run CommandEntry := do
  match (← get).commands.find? key with
  | some entry => return entry
  | none => fail (.unknownCommand key)

/-- Changes the registry, or fails in a way that callers must not swallow. -/
def register (change : Registry → Except RegistryError Registry) : Run Unit := do
  match change (← get).commands with
  | .ok commands => modify fun e => { e with commands }
  | .error e => fail (.internal (.registry e))

/-- Removes a key and says whether it was there. -/
def eraseCommand (key : String) : Run Bool := do
  let (found, commands) := (← get).commands.erase key
  modify fun e => { e with commands }
  return found

/-- Removes a file; if that fails, a message says why. -/
def unlink (path : String) : Run Unit := do
  match (← get).disk.unlink path with
  | .ok disk => modify fun e => { e with disk }
  | .error e => report ("Could not unlink tied file: " ++ e.message)

end Run

end TorrentControl

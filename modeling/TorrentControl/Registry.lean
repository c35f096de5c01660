import TorrentControl.Command.Callable
import TorrentControl.KeyMap

/-! # The registry of commands

A registry binds keys to callables. Some entries are public: a bridge that is attached to the registry
is told of each when it comes and when it is erased, and of those that are there already at the time
it is attached. An alias is a second entry for a callable, which stays when the first one goes. -/

namespace TorrentControl

/-! ## Entries -/

structure EntryFlags where
  /-- The entry shares the callable of another one. -/
  isShared : Bool
  /-- The key was made at run time. -/
  ownsKey : Bool
  isPublic : Bool
deriving DecidableEq, Repr

namespace EntryFlags

def none : EntryFlags :=
  ⟨false, false, false⟩

def published : EntryFlags :=
  ⟨false, false, true⟩

/-- One bit for each flag, the first one lowest. -/
def bits (flags : EntryFlags) : Nat :=
  flags.isShared.toNat + 2 * flags.ownsKey.toNat + 4 * flags.isPublic.toNat

end EntryFlags

structure CommandEntry where
  callable : Callable
  /-- The number of the registration that brought the callable. Aliases keep it. -/
  origin : Nat
  flags : EntryFlags
  /-- The parameters and the result, such as `i:s`. -/
  signature : String
  help : String
deriving DecidableEq

namespace CommandEntry

def isPublic (entry : CommandEntry) : Bool :=
  entry.flags.isPublic

def kind (entry : CommandEntry) : TargetKind :=
  entry.callable.kind

def sharesCallable (a b : CommandEntry) : Bool :=
  a.origin == b.origin

end CommandEntry

/-! ## Bridges -/

/-- What a bridge is told. -/
inductive Notice where
  | published (key signature help : String)
  | withdrawn (key : String)
deriving DecidableEq, Repr

/-- Which notices a bridge takes. -/
inductive Bridge where
  | everything
  | publications
deriving DecidableEq, Repr

def Bridge.takes : Bridge → Notice → Bool
  | .publications, .withdrawn _ => false
  | _, _ => true

/-! ## Registries -/

structure Registry where
  entries : KeyMap CommandEntry
  /-- How many registrations there were. -/
  registrations : Nat
  bridge : Option Bridge
  /-- What bridges were told, the oldest notice first. -/
  notices : List Notice
deriving DecidableEq

namespace Registry

def empty : Registry :=
  ⟨[], 0, none, []⟩

/-! ## Looking up -/

def find? (r : Registry) (key : String) : Option CommandEntry :=
  KeyMap.find? r.entries key

def contains (r : Registry) (key : String) : Bool :=
  KeyMap.contains r.entries key

def size (r : Registry) : Nat :=
  r.entries.length

def keys (r : Registry) : List String :=
  KeyMap.keys r.entries

def publicEntries (r : Registry) : KeyMap CommandEntry :=
  r.entries.filter fun entry => entry.2.isPublic

def publicKeys (r : Registry) : List String :=
  KeyMap.keys r.publicEntries

/-- How many entries share their callable with one. -/
def holders (r : Registry) (entry : CommandEntry) : Nat :=
  r.entries.countP fun other => other.2.sharesCallable entry

/-! ## Changing -/

/-- Tells the bridge, if there is one and it takes the notice. -/
def tell (r : Registry) (notice : Notice) : Registry :=
  match r.bridge with
  | some bridge => if bridge.takes notice then { r with notices := r.notices ++ [notice] } else r
  | none => r

def publication (key : String) (entry : CommandEntry) : Notice :=
  .published key entry.signature entry.help

/-- Puts an entry under a key that is free. -/
def insertEntry (r : Registry) (key : String) (entry : CommandEntry) :
    Except RegistryError Registry :=
  if r.contains key then .error (.duplicateKey key)
  else
    let told := if entry.isPublic then r.tell (publication key entry) else r
    .ok { told with entries := KeyMap.insert told.entries key entry }

/-- Registers a callable under a key. -/
def insert (r : Registry) (key : String) (callable : Callable) (flags : EntryFlags)
    (signature help : String) : Except RegistryError Registry :=
  { r with registrations := r.registrations + 1 }.insertEntry key
    { callable, origin := r.registrations, flags, signature, help }

/-- Registers a second key for the callable of an entry. The alias is as public as the entry is. -/
def insertAlias (r : Registry) (key : String) (ownsKey : Bool) (source : String) :
    Except RegistryError Registry :=
  match r.find? source with
  | none => .error (.unknownSource key source)
  | some entry =>
    r.insertEntry key { entry with flags := { entry.flags with isShared := true, ownsKey } }

/-- Removes a key and says whether it was there. -/
def erase (r : Registry) (key : String) : Bool × Registry :=
  match r.find? key with
  | none => (false, r)
  | some entry =>
    let told := if entry.isPublic then r.tell (.withdrawn key) else r
    (true, { told with entries := KeyMap.erase told.entries key })

/-- Removes everything without telling the bridge. -/
def clear (r : Registry) : Registry :=
  { r with entries := [] }

/-! ## The bridge -/

/-- Attaches a bridge in place of any other and tells it of the public entries. -/
def attach (r : Registry) (bridge : Bridge) : Registry :=
  { r with
    bridge := some bridge
    notices := r.notices ++ r.publicEntries.map fun entry => publication entry.1 entry.2 }

/-- Detaches the bridge and says whether there was one. -/
def detach (r : Registry) : Bool × Registry :=
  (r.bridge.isSome, { r with bridge := none })

/-- Takes the notices that were not taken yet. -/
def takeNotices (r : Registry) : List Notice × Registry :=
  (r.notices, { r with notices := [] })

end Registry

end TorrentControl

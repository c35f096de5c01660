/-! # Message logs

A log keeps the latest messages, as many as its capacity, and at least one. -/

namespace TorrentControl

structure MessageLog where
  capacity : Nat
  /-- From the oldest to the newest. -/
  messages : List String
deriving DecidableEq, Repr

namespace MessageLog

def withCapacity (capacity : Nat) : MessageLog :=
  ⟨max capacity 1, []⟩

def standardCapacity : Nat := 256

def empty : MessageLog :=
  withCapacity standardCapacity

/-- Appends a message. A full log forgets its oldest one first. -/
def push (log : MessageLog) (message : String) : MessageLog :=
  let kept := if log.messages.length = log.capacity then log.messages.drop 1 else log.messages
  { log with messages := kept ++ [message] }

def latest? (log : MessageLog) : Option String :=
  log.messages.getLast?

def size (log : MessageLog) : Nat :=
  log.messages.length

def isEmpty (log : MessageLog) : Bool :=
  log.messages.isEmpty

end MessageLog

end TorrentControl

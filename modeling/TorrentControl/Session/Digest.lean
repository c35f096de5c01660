import TorrentControl.Text.Hex

/-! # Digests

Info hashes and peer ids are digests of twenty bytes. -/

namespace TorrentControl

structure Digest where
  bytes : List UInt8
  length_eq : bytes.length = 20
deriving DecidableEq

namespace Digest

def ofBytes? (bytes : List UInt8) : Option Digest :=
  if h : bytes.length = 20 then some ⟨bytes, h⟩ else none

def ofHex? (s : String) : Option Digest :=
  (Text.Hex.decode s).bind ofBytes?

/-- The digest whose bytes are all the same. -/
def fill (b : UInt8) : Digest :=
  ⟨List.replicate 20 b, by simp⟩

def zero : Digest :=
  fill 0

def toHex (letters : Text.Hex.Case) (d : Digest) : String :=
  Text.Hex.encode letters d.bytes

end Digest

end TorrentControl

import TorrentControl.Registry

/-! # Method tables

The methods that clients may call, with what they are told about each. A table is made from the
notices of a registry, one after the other. -/

namespace TorrentControl.Rpc

structure MethodInfo where
  signature : String
  help : String
deriving DecidableEq, Repr

abbrev MethodTable := KeyMap MethodInfo

namespace MethodTable

def empty : MethodTable :=
  []

def hear (table : MethodTable) : Notice → MethodTable
  | .published key signature help => KeyMap.insert table key ⟨signature, help⟩
  | .withdrawn key => KeyMap.erase table key

def hearAll (table : MethodTable) (notices : List Notice) : MethodTable :=
  notices.foldl hear table

end MethodTable

end TorrentControl.Rpc

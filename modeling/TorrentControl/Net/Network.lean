import TorrentControl.Net.Ipv4
import TorrentControl.Net.Ipv6

/-! # The network of a machine

What listening at a port takes: the address of the host, which must be one of the machine's own, and a
port that nobody listens at. Port zero asks for any free port. A machine without any interface that is
up cannot tell which IPv4 addresses are its own, and listens at all of them. -/

namespace TorrentControl.Net

inductive NetworkError where
  | nulByte
  | unknownHost
  | addressInUse
  | addressNotAvailable
  | unreachable
deriving DecidableEq, Repr

def NetworkError.message : NetworkError → String
  | .nulByte => "file name contained an unexpected NUL byte"
  | .unknownHost => "failed to lookup address information: Name or service not known"
  | .addressInUse => "Address already in use (os error 98)"
  | .addressNotAvailable => "Cannot assign requested address (os error 99)"
  | .unreachable => "Network is unreachable (os error 101)"

structure Network where
  /-- Host names with their addresses. -/
  names : List (String × String)
  /-- Ports that somebody listens at. -/
  taken : List UInt16
  /-- The port that is handed out to who asks for any. -/
  free : UInt16
  /-- Whether an interface is up, so that connections get through. -/
  isUp : Bool
deriving DecidableEq, Repr

namespace Network

/-- The address that a text spells, in the one form in which addresses are compared. -/
def address? (text : String) : Option String :=
  match Ipv4.read? text.toList with
  | some address => some (Ipv4.write address)
  | none => (Ipv6.read? text.toList).map Ipv6.write

/-- Whether an address, in its one form, has four numbers. -/
def isIpv4 (address : String) : Bool :=
  (Ipv4.read? address.toList).isSome

/-- Addresses of the machine itself: those that stand for all of its own, and the loopback. -/
def isOwn (network : Network) (address : String) : Bool :=
  if isIpv4 address then
    !network.isUp || address == "0.0.0.0" || "127.".toList.isPrefixOf address.toList
  else address == "::" || (network.isUp && address == "::1")

def resolve (network : Network) (host : String) : Except NetworkError String :=
  if host.toList.contains '\x00' then .error .nulByte
  else
    match address? host, network.names.find? fun entry => entry.1 == host with
    | some address, _ => .ok address
    | none, some (_, address) => .ok address
    | none, none => .error .unknownHost

/-- The port at which is listened in the end. -/
def bind (network : Network) (address : String) (port : UInt16) : Except NetworkError UInt16 :=
  if !network.isOwn address then .error .addressNotAvailable
  else if port = 0 then .ok network.free
  else if network.taken.contains port then .error .addressInUse
  else .ok port

def connect (network : Network) : Except NetworkError Unit :=
  if network.isUp then .ok () else .error .unreachable

end Network

end TorrentControl.Net

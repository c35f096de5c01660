import TorrentControl.Number.Decimal
import TorrentControl.Text.Hex
import TorrentControl.Text.Split

/-! # IPv4 addresses

An address is a number of 32 bits. It is written as four decimal numbers with points between them,
but it may be read from fewer: the last number fills all the bits that the others leave. A number may
be hexadecimal or octal as well, which `0x` or a zero in front of it says. -/

namespace TorrentControl.Net.Ipv4

/-! ## Reading -/

def radixDigit? (radix : Nat) (c : Char) : Option Nat :=
  (Text.Hex.digitValue? c).filter (· < radix)

/-- The number that digits of a radix denote. No digits are zero. -/
def ofDigits? (radix : Nat) (cs : List Char) : Option Nat :=
  cs.foldlM (fun n c => (radixDigit? radix c).map (radix * n + ·)) 0

/-- A number with its radix. Nothing may follow `0x`, which is zero then. -/
def readNumber? : List Char → Option Nat
  | [] => none
  | '0' :: 'x' :: digits | '0' :: 'X' :: digits => ofDigits? 16 digits
  | '0' :: digit :: digits => ofDigits? 8 (digit :: digits)
  | digits => ofDigits? 10 digits

/-- The address of one to four numbers. Each but the last has eight bits. -/
def ofNumbers? (numbers : List Nat) : Option Nat :=
  let places := 4 - numbers.dropLast.length
  let last := numbers.getLastD 0
  if numbers = [] ∨ 4 < numbers.length ∨ Nat.pow 256 places ≤ last ∨
      numbers.dropLast.any (255 < ·) then none
  else some (numbers.dropLast.foldl (256 * · + ·) 0 * Nat.pow 256 places + last)

def readParts? (parts : List (List Char)) : Option Nat :=
  (parts.mapM readNumber?).bind ofNumbers?

/-- Reads an address as addresses of the web have it: one point may stand at the end. -/
def readWeb? (cs : List Char) : Option Nat :=
  let parts := Text.split '.' cs
  readParts? (if parts.getLast? = some [] then parts.dropLast else parts)

/-- Reads an address as name services take it: no point may stand at the end, and `0x` must have
digits. -/
def read? (cs : List Char) : Option Nat :=
  let parts := Text.split '.' cs
  if parts.any fun part => part.map Char.toLower == ['0', 'x'] then none else readParts? parts

/-- Whether the last part of a name is a number, so that the name can only be an address. A point at
the end does not count. -/
def endsInNumber (cs : List Char) : Bool :=
  let last := match (Text.split '.' cs).reverse with
    | [] :: last :: _ => last
    | last :: _ => last
    | [] => []
  (last ≠ [] && last.all Number.Decimal.isDigit) || (readNumber? last).isSome

/-! ## Writing -/

def octets (address : Nat) : List Nat :=
  [address / 16777216, address / 65536 % 256, address / 256 % 256, address % 256]

def write (address : Nat) : String :=
  ".".intercalate ((octets address).map toString)

end TorrentControl.Net.Ipv4

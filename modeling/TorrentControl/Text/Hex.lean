/-! # Hexadecimal text

Each byte is two digits, the high half first. Writing uses one letter case; reading accepts both
and wants an even number of digits. -/

namespace TorrentControl.Text.Hex

/-- The letter case in which digits above nine are written. -/
inductive Case where
  | lower
  | upper
deriving DecidableEq

def digit (letters : Case) (n : Nat) : Char :=
  if n < 10 then Char.ofNat (n + '0'.toNat)
  else
    match letters with
    | .lower => Char.ofNat (n - 10 + 'a'.toNat)
    | .upper => Char.ofNat (n - 10 + 'A'.toNat)

def encodeByte (letters : Case) (b : UInt8) : List Char :=
  [digit letters (b.toNat / 16), digit letters (b.toNat % 16)]

def encode (letters : Case) (bytes : List UInt8) : String :=
  String.ofList (bytes.flatMap (encodeByte letters))

def digitValue? (c : Char) : Option Nat :=
  if '0' ≤ c ∧ c ≤ '9' then some (c.toNat - '0'.toNat)
  else if 'a' ≤ c ∧ c ≤ 'f' then some (c.toNat - 'a'.toNat + 10)
  else if 'A' ≤ c ∧ c ≤ 'F' then some (c.toNat - 'A'.toNat + 10)
  else none

def decodeChars : List Char → Option (List UInt8)
  | [] => some []
  | high :: low :: rest => do
    let h ← digitValue? high
    let l ← digitValue? low
    let bytes ← decodeChars rest
    return UInt8.ofNat (16 * h + l) :: bytes
  | [_] => none

def decode (s : String) : Option (List UInt8) :=
  decodeChars s.toList

end TorrentControl.Text.Hex

import TorrentControl.Number.Word

/-! # Decimal integers as text

An integer is written with the fewest digits and a minus sign if it is negative. Reading is more
lenient: one plus or minus sign may stand in front, and zeros may lead. -/

namespace TorrentControl.Number.Decimal

def isDigit (c : Char) : Bool :=
  '0' ≤ c && c ≤ '9'

def digitValue (c : Char) : Nat :=
  c.toNat - '0'.toNat

/-- The number that a run of digits denotes. -/
def ofDigits (cs : List Char) : Nat :=
  cs.foldl (fun n c => 10 * n + digitValue c) 0

def readNat? (cs : List Char) : Option Nat :=
  if cs ≠ [] ∧ cs.all isDigit then some (ofDigits cs) else none

/-- An optional sign and at least one digit. -/
def readInt? : List Char → Option Int
  | '+' :: ds => (readNat? ds).map Int.ofNat
  | '-' :: ds => (readNat? ds).map fun n => -Int.ofNat n
  | ds => (readNat? ds).map Int.ofNat

def readWord? (cs : List Char) : Option Int64 :=
  (readInt? cs).bind Word.ofInt?

def writeInt (n : Int) : String :=
  toString n

def writeWord (w : Int64) : String :=
  writeInt w.toInt

end TorrentControl.Number.Decimal

import TorrentControl.Number.Decimal
import TorrentControl.Text.Hex
import TorrentControl.Text.Split

/-! # IPv6 addresses

An address is eight groups of sixteen bits. As text they are hexadecimal numbers with colons between
them; two colons stand for a gap of one zero group or more, and the last two groups may be written as
four decimal numbers with points between them. The text that is written here is the shortest: without
leading zeros, and with a gap for the first of the longest runs of zeros. -/

namespace TorrentControl.Net.Ipv6

/-! ## Reading -/

/-- One to four hexadecimal digits. -/
def readGroup? (cs : List Char) : Option Nat :=
  if cs = [] ∨ 4 < cs.length then none
  else cs.foldlM (fun n c => (Text.Hex.digitValue? c).map fun d => 16 * n + d) 0

/-- A decimal number below 256 without leading zeros. -/
def readOctet? (cs : List Char) : Option Nat := do
  let n ← Number.Decimal.readNat? cs
  if 255 < n ∨ (cs.head? = some '0' ∧ 1 < cs.length) then none else some n

/-- Four decimal numbers, which fill two groups. -/
def readDotted? (cs : List Char) : Option (List Nat) := do
  match ← (Text.split '.' cs).mapM readOctet? with
  | [a, b, c, d] => some [256 * a + b, 256 * c + d]
  | _ => none

/-- Groups one after the other, the last of which may be dotted if `dotted` says so. -/
def readGroups? (dotted : Bool) : List (List Char) → Option (List Nat)
  | [] => some []
  | [last] => if dotted && last.contains '.' then readDotted? last else (readGroup? last).map fun n => [n]
  | group :: rest => do
    let n ← readGroup? group
    let ns ← readGroups? dotted rest
    return n :: ns

/-- The groups on one side of the gap, of which there may be none. -/
def readSide? (dotted : Bool) (cs : List Char) : Option (List Nat) :=
  if cs = [] then some [] else readGroups? dotted (Text.split ':' cs)

/-- The text before and after the first two colons that follow each other. -/
def splitGap : List Char → Option (List Char × List Char)
  | ':' :: ':' :: rest => some ([], rest)
  | c :: rest => (splitGap rest).map fun sides => (c :: sides.1, sides.2)
  | [] => none

def read? (cs : List Char) : Option (List Nat) :=
  match splitGap cs with
  | none => (readSide? true cs).bind fun groups => if groups.length = 8 then some groups else none
  | some (before, after) => do
    let left ← readSide? false before
    let right ← readSide? true after
    let missing := 8 - (left.length + right.length)
    if missing = 0 then none else some (left ++ List.replicate missing 0 ++ right)

/-! ## Writing -/

/-- How many zeros there are from an index on. -/
def zerosFrom (groups : List Nat) (i : Nat) : Nat :=
  ((groups.drop i).takeWhile (· == 0)).length

/-- The first index from which on most zeros stand. -/
def gapStart (groups : List Nat) : Nat :=
  (List.range groups.length).foldl
    (fun best i => if zerosFrom groups best < zerosFrom groups i then i else best) 0

def writeGroups (groups : List Nat) : String :=
  ":".intercalate (groups.map fun n => String.ofList (Nat.toDigits 16 n))

def write (groups : List Nat) : String :=
  let start := gapStart groups
  let length := zerosFrom groups start
  if length < 2 then writeGroups groups
  else writeGroups (groups.take start) ++ "::" ++ writeGroups (groups.drop (start + length))

end TorrentControl.Net.Ipv6

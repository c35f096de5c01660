import TorrentControl.Text.Hex

/-! # Punycode

A text spelled in ASCII letters, digits and minus signs. Its ASCII characters stand in front, up to
the last minus sign. What follows are numbers that say which other characters go where: each number
counts the places passed over, once around the text for every code point, until the next character
goes in. A number has its least digits first, and which digit ends it depends on the numbers before
it. -/

namespace TorrentControl.Text.Punycode

/-- The letters are the digits below 26, in either case, and the ten digits follow them. -/
def digitValue? (c : Char) : Option Nat :=
  if 'a' ≤ c ∧ c ≤ 'z' then some (c.toNat - 'a'.toNat)
  else if 'A' ≤ c ∧ c ≤ 'Z' then some (c.toNat - 'A'.toNat)
  else if '0' ≤ c ∧ c ≤ '9' then some (26 + (c.toNat - '0'.toNat))
  else none

/-- The least digit at a place that does not end a number. -/
def threshold (bias place : Nat) : Nat :=
  max 1 (min 26 (36 * (place + 1) - bias))

/-- Scales a step down until it is small enough for one place. -/
def scaleDown (step places : Nat) : Nat × Nat :=
  if 455 < step then scaleDown (step / 35) (places + 1) else (step, places)
termination_by step
decreasing_by exact Nat.div_lt_self (by omega) (by omega)

/-- The bias for the next number, by the last one and how many characters there are now. -/
def adapt (step count : Nat) (isFirst : Bool) : Nat :=
  let halved := if isFirst then step / 700 else step / 2
  let (rest, places) := scaleDown (halved + halved / count) 0
  36 * places + 36 * rest / (rest + 38)

/-- A text in the course of being put together. -/
structure Draft where
  text : List Char
  /-- The code point that is being gone around with, and the place reached. -/
  code : Nat
  place : Nat
  bias : Nat
  /-- The number as far as it is read, and the weight and the place of its next digit. -/
  step : Nat
  weight : Nat
  digits : Nat

def start (ascii : List Char) : Draft :=
  ⟨ascii, 0x80, 0, 72, 0, 1, 0⟩

/-- Goes as many steps on and puts a character in. -/
def Draft.insert (d : Draft) (step : Nat) : Option Draft :=
  let count := d.text.length + 1
  let code := d.code + (d.place + step) / count
  let place := (d.place + step) % count
  if code.isValidChar then
    some { text := d.text.insertIdx place (Char.ofNat code)
           code
           place := place + 1
           bias := adapt step count (d.place = 0)
           step := 0
           weight := 1
           digits := 0 }
  else none

/-- Numbers have 32 bits. -/
def greatestNumber : Nat := 0xFFFFFFFF

/-- Reads on by a digit, which is the last one of its number if it is below the threshold. -/
def Draft.read (d : Draft) (c : Char) : Option Draft := do
  let digit ← digitValue? c
  let least := threshold d.bias d.digits
  let step := d.step + digit * d.weight
  let weight := d.weight * (36 - least)
  if greatestNumber < d.place + step then none
  else if digit < least then d.insert step
  else if greatestNumber < weight then none
  else return { d with step, weight, digits := d.digits + 1 }

/-- The text before the last minus sign and the one after it. A minus sign that nothing stands before
divides nothing. -/
def splitLast (cs : List Char) : List Char × List Char :=
  match cs.reverse.span (· != '-') with
  | (code, _ :: c :: ascii) => ((c :: ascii).reverse, code.reverse)
  | _ => ([], cs)

/-- The text that is spelled, unless it is not spelled in ASCII, or a number breaks off or leads
beyond all characters. -/
def decode? (cs : List Char) : Option (List Char) := do
  let (ascii, code) := splitLast cs
  if ascii.any (0x80 ≤ ·.toNat) then none
  let d ← code.foldlM Draft.read (start ascii)
  if d.digits = 0 then return d.text else none

end TorrentControl.Text.Punycode

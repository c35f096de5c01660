import TorrentControl.Number.Decimal
import TorrentControl.Number.Shortest

/-! # JSON numbers

A numeral is a number as it is written. Read, it is an integer if it is written as one and fits into
a word, signed or unsigned, and otherwise a binary floating-point number. Minus zero is a
floating-point number, because no integer has its sign. -/

namespace TorrentControl.Json

open Number (Binary)

/-- The digits of the fraction and of the exponent are empty if the part is absent. -/
structure Numeral where
  negative : Bool
  whole : List Char
  fraction : List Char
  exponentNegative : Bool
  exponent : List Char
deriving DecidableEq, Repr

/-- What a numeral denotes. -/
inductive NumeralValue where
  | integer (n : Int)
  | floating (negative : Bool) (magnitude : Binary)
  | outOfRange
deriving DecidableEq, Repr

namespace Numeral

def ofInt (n : Int) : Numeral :=
  { negative := n < 0
    whole := (toString n.natAbs).toList
    fraction := []
    exponentNegative := false
    exponent := [] }

/-- The text of the numeral. -/
def chars (n : Numeral) : List Char :=
  (if n.negative then ['-'] else []) ++ n.whole ++
    (if n.fraction = [] then [] else '.' :: n.fraction) ++
    (if n.exponent = [] then [] else
      'e' :: (if n.exponentNegative then ['-'] else []) ++ n.exponent)

def isInteger (n : Numeral) : Bool :=
  n.fraction.isEmpty && n.exponent.isEmpty

/-- All digits as one integer, and the power of ten that it is multiplied by. -/
def decimal (n : Numeral) : Nat × Int :=
  let exponent : Int := Number.Decimal.ofDigits n.exponent
  (Number.Decimal.ofDigits (n.whole ++ n.fraction),
    (if n.exponentNegative then -exponent else exponent) - n.fraction.length)

/-! ## Floating-point reading

Digits are gathered into a significand while it fits into 64 bits. A digit of the whole part that
no longer fits raises the decimal exponent instead; one of the fraction is dropped with all after
it. The significand is rounded to a binary number, and the power of ten is multiplied or divided in
afterwards, which rounds again. -/

def greatestSignificand : Nat := 18446744073709551615

/-- The significand after as many of the digits as fit, and the digits left. -/
def gather (significand : Nat) : List Char → Nat × List Char
  | [] => (significand, [])
  | c :: cs =>
    let next := 10 * significand + Number.Decimal.digitValue c
    if next ≤ greatestSignificand then gather next cs else (significand, c :: cs)

/-- Divides by `10 ^ n`, at most 308 of the exponent at a time. -/
def divideByTens (b : Binary) (n : Nat) : Option Binary :=
  if b.isZero then some b
  else if n ≤ 308 then do b.div (← Binary.ofNat (Nat.pow 10 n))
  else do
    let quotient ← b.div (← Binary.ofNat (Nat.pow 10 308))
    divideByTens quotient (n - 308)
termination_by n

def multiplyByTens (b : Binary) (n : Nat) : Option Binary :=
  if n ≤ 308 then do b.mul (← Binary.ofNat (Nat.pow 10 n))
  else if b.isZero then some b
  else none

/-- The magnitude of the numeral as a binary number, if it is not too great. -/
def magnitude (n : Numeral) : Option Binary := do
  let (whole, overflow) := gather 0 n.whole
  let (significand, dropped) := gather whole n.fraction
  let places : Int := (overflow.length : Int) - (n.fraction.length - dropped.length : Nat)
  let exponent := Number.Decimal.ofDigits n.exponent
  let scale := if n.exponentNegative then places - exponent else places + exponent
  let start ← Binary.ofNat significand
  if 0 ≤ scale then multiplyByTens start scale.toNat else divideByTens start (-scale).toNat

/-! ## Reading -/

/-- The integer of an integer numeral, if it fits. -/
def integer? (n : Numeral) : Option Int :=
  let magnitude : Int := Number.Decimal.ofDigits n.whole
  if n.isInteger then
    if n.negative then
      if 0 < magnitude ∧ Number.Word.least ≤ -magnitude then some (-magnitude) else none
    else if magnitude ≤ greatestSignificand then some magnitude
    else none
  else none

def value (n : Numeral) : NumeralValue :=
  match n.integer? with
  | some i => .integer i
  | none =>
    match n.magnitude with
    | some b => .floating n.negative b
    | none => .outOfRange

end Numeral

end TorrentControl.Json

/-! # Binary floating-point numbers of 64 bits

The non-negative finite ones, as exact pairs of a mantissa and a binary exponent. Every operation
takes an exact quotient of natural numbers and rounds it once, to the nearest such number and to
the even mantissa on a tie. -/

namespace TorrentControl.Number

/-- The number `mantissa * 2 ^ exponent`. -/
structure Binary where
  mantissa : Nat
  exponent : Int
deriving DecidableEq, Repr

namespace Binary

def leastExponent : Int := -1074

def greatestExponent : Int := 971

/-- The least mantissa of 53 bits, `2 ^ 52`. -/
def leastFullMantissa : Nat := 0x10000000000000

def zero : Binary := ⟨0, leastExponent⟩

/-- `2 ^ e` for `e ≥ 0`, and 1 below. -/
def raise (e : Int) : Nat :=
  Nat.pow 2 e.toNat

/-- A numerator and a denominator of the exact value. -/
def ratio (b : Binary) : Nat × Nat :=
  (b.mantissa * raise b.exponent, raise (-b.exponent))

/-- The quotient rounded to the nearest integer, a half to the even one. -/
def divideToEven (n d : Nat) : Nat :=
  let q := n / d
  let twice := 2 * (n % d)
  if twice < d then q
  else if d < twice then q + 1
  else if q % 2 = 0 then q
  else q + 1

/-- The binary exponent at which `n / d` has a mantissa of 53 bits, or the least one. -/
def exponentFor (n d : Nat) : Int :=
  let guess : Int := (n.log2 : Int) - d.log2 - 52
  let short := n * raise (-guess) / (d * raise guess) < leastFullMantissa
  max leastExponent (if short then guess - 1 else guess)

/-- The number nearest to `n / d`, unless that is beyond the greatest finite one. -/
def ofRatio (n d : Nat) : Option Binary :=
  if n = 0 then some zero
  else
    let e := exponentFor n d
    let m := divideToEven (n * raise (-e)) (d * raise e)
    let rounded : Binary :=
      if m = 2 * leastFullMantissa then ⟨leastFullMantissa, e + 1⟩ else ⟨m, e⟩
    if greatestExponent < rounded.exponent then none else some rounded

def ofNat (n : Nat) : Option Binary :=
  ofRatio n 1

def mul (a b : Binary) : Option Binary :=
  ofRatio (a.ratio.1 * b.ratio.1) (a.ratio.2 * b.ratio.2)

def div (a b : Binary) : Option Binary :=
  ofRatio (a.ratio.1 * b.ratio.2) (a.ratio.2 * b.ratio.1)

def isZero (b : Binary) : Bool :=
  b.mantissa == 0

/-! ## Decimals that are too great -/

/-- Half a step above the greatest finite number. From here on the nearest number would need a
greater exponent. -/
def overflowBound : Nat :=
  Nat.pow 2 1024 - Nat.pow 2 970

/-- Whether no finite number is nearest to `digits * 10 ^ exponent`. Only where the number of digits
leaves it open are the two sides computed. -/
def overflows (digits : Nat) (exponent : Int) : Bool :=
  let places := (toString digits).length + exponent
  if digits = 0 ∨ places < 300 then false
  else if 400 < places then true
  else
    overflowBound * Nat.pow 10 (-exponent).toNat ≤ digits * Nat.pow 10 exponent.toNat

end Binary

end TorrentControl.Number

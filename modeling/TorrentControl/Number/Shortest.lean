import TorrentControl.Number.Binary

/-! # Shortest decimal text of a binary number

The text has the fewest digits among all decimals that read back as the same number and, of those,
is the one nearest to it. Two of them can be equally near; a format says which one it takes then, and
how it writes the digits: always in their places, or with an exponent where there would be many
zeros. -/

namespace TorrentControl.Number.Shortest

/-- The decimal `digits * 10 ^ exponent`. -/
structure Decimal where
  digits : Nat
  exponent : Int
deriving DecidableEq, Repr

/-- `10 ^ e` for `e ≥ 0`, and 1 below. -/
def raiseTen (e : Int) : Nat :=
  Nat.pow 10 e.toNat

/-- The interval of the quotients that round to a number, each bound over the same denominator.
The ends belong to it exactly when the mantissa is even. -/
structure Interval where
  low : Nat
  value : Nat
  high : Nat
  denominator : Nat
  closed : Bool
deriving DecidableEq, Repr

/-- Below a power of two the next smaller number is only half as far away. -/
def interval (b : Binary) : Interval :=
  let narrow := b.mantissa = Binary.leastFullMantissa ∧ Binary.leastExponent < b.exponent
  let scale := Binary.raise b.exponent
  { low := (4 * b.mantissa - (if narrow then 1 else 2)) * scale
    value := 4 * b.mantissa * scale
    high := (4 * b.mantissa + 2) * scale
    denominator := 4 * Binary.raise (-b.exponent)
    closed := b.mantissa % 2 == 0 }

/-- Whether the decimal lies in the interval, compared as cross products. -/
def Interval.holds (i : Interval) (d : Decimal) : Bool :=
  let x := d.digits * raiseTen d.exponent * i.denominator
  let down := raiseTen (-d.exponent)
  if i.closed then i.low * down ≤ x && x ≤ i.high * down
  else i.low * down < x && x < i.high * down

/-- How far the decimal is from the value, in units that depend on the exponent only. -/
def Interval.distance (i : Interval) (d : Decimal) : Nat :=
  let x := d.digits * raiseTen d.exponent * i.denominator
  let v := i.value * raiseTen (-d.exponent)
  if x < v then v - x else x - v

/-- The number of digits before the point, zero or less for fractions: the `k` with
`10 ^ (k - 1) ≤ n / d < 10 ^ k`, searched upward from a lower bound. -/
def magnitude (n d : Nat) : Nat → Int → Int
  | 0, k => k
  | steps + 1, k =>
    if n * raiseTen (-k) < d * raiseTen k then k else magnitude n d steps (k + 1)

/-- The neighbours of the value among the decimals with `count` digits. -/
def neighbours (i : Interval) (k : Int) (count : Nat) : List Decimal :=
  let e := k - count
  let below := i.value * raiseTen (-e) / (i.denominator * raiseTen e)
  [⟨below, e⟩, ⟨below + 1, e⟩]

/-- Which of two equally near neighbours is taken. -/
inductive Tie where
  | up
  | even
deriving DecidableEq, Repr

/-- The nearer one of two neighbours, the lower of which comes first. -/
def Interval.nearer (i : Interval) (tie : Tie) (lower upper : Decimal) : Decimal :=
  if i.distance lower < i.distance upper then lower
  else if i.distance upper < i.distance lower then upper
  else
    match tie with
    | .up => upper
    | .even => if lower.digits % 2 = 0 then lower else upper

def nearest (i : Interval) (tie : Tie) : List Decimal → Option Decimal
  | [lower, upper] => some (i.nearer tie lower upper)
  | ds => ds.head?

/-- The nearest neighbour at the first digit count at which one reads back. Seventeen digits are
always enough, so the default stands for the number zero only. -/
def ofBinary (tie : Tie) (b : Binary) : Decimal :=
  let i := interval b
  let k := magnitude i.value i.denominator 700 (-330)
  let attempts :=
    (List.range 17).map fun n => nearest i tie ((neighbours i k (n + 1)).filter i.holds)
  if b.mantissa = 0 then ⟨0, 0⟩ else (attempts.findSome? id).getD ⟨0, 0⟩

/-! ## Text -/

/-- The digits with the point in its place, and whether a fraction follows it. -/
def positional (d : Decimal) : String × Bool :=
  let ds := (toString d.digits).toList
  if 0 ≤ d.exponent then
    (String.ofList (ds ++ List.replicate d.exponent.toNat '0'), false)
  else
    let places := (-d.exponent).toNat
    let padded := List.replicate (places + 1 - ds.length) '0' ++ ds
    let whole := padded.take (padded.length - places)
    let fraction := padded.drop (padded.length - places)
    (String.ofList (whole ++ '.' :: fraction), true)

/-- The exponent of the first digit. -/
def leadingExponent (d : Decimal) : Int :=
  (toString d.digits).length - 1 + d.exponent

/-- The point after the first digit, and an exponent with a sign and at least two digits. -/
def scientific (d : Decimal) : String :=
  let mantissa := match (toString d.digits).toList with
    | first :: fraction@(_ :: _) => first :: '.' :: fraction
    | ds => ds
  let exponent := leadingExponent d
  let digits := toString exponent.natAbs
  String.ofList mantissa ++ (if exponent < 0 then "e-" else "e+") ++
    (if digits.length < 2 then "0" ++ digits else digits)

/-- Drops the zeros at the end of the digits. -/
def normalize (d : Decimal) : Nat → Decimal
  | 0 => d
  | steps + 1 =>
    if d.digits ≠ 0 ∧ d.digits % 10 = 0 then normalize ⟨d.digits / 10, d.exponent + 1⟩ steps else d

def signed (negative : Bool) (text : String) : String :=
  if negative then "-" ++ text else text

/-- The text in which every digit stands in its place. A number without a fraction is written like an
integer, and a tie goes up. -/
def text (negative : Bool) (b : Binary) : String :=
  signed negative (positional (normalize (ofBinary .up b) 400)).1

/-- The text as a JSON number that cannot be taken for an integer. It has an exponent below `1e-5`
and from `1e+16` on, and otherwise a fraction, if only `.0`. A tie goes to the even digit. -/
def jsonText (negative : Bool) (b : Binary) : String :=
  let d := normalize (ofBinary .even b) 400
  let isPlaced := d.digits = 0 ∨ (-5 ≤ leadingExponent d ∧ leadingExponent d ≤ 15)
  let (digits, fraction) := positional d
  signed negative
    (if isPlaced then (if fraction then digits else digits ++ ".0") else scientific d)

end TorrentControl.Number.Shortest

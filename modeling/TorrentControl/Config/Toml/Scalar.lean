import TorrentControl.Config.Setting
import TorrentControl.Config.Toml.Text
import TorrentControl.Json.Token
import TorrentControl.Number.Word
import TorrentControl.Text.Split

/-! # Numbers, truth values and times of TOML

What is neither a string nor in brackets is one word, but for a space that may stand between a date
and a time. Digits may be grouped by single underscores. -/

namespace TorrentControl.Toml

def isDigit (c : Char) : Bool :=
  Number.Decimal.isDigit c

/-! ## Numbers -/

/-- The digits without the underscores between them. -/
def ungroup? (cs : List Char) : Option (List Char) :=
  let groups := Text.split '_' cs
  if groups.all fun group => !group.isEmpty then some groups.flatten else none

def radixDigit? (radix : Nat) (c : Char) : Option Nat :=
  (Text.Hex.digitValue? c).filter (· < radix)

def readRadix? (radix : Nat) (cs : List Char) : Option Nat := do
  (← ungroup? cs).foldlM (fun n d => (radixDigit? radix d).map (radix * n + ·)) 0

def takeSign : List Char → Bool × List Char
  | '-' :: cs => (true, cs)
  | '+' :: cs => (false, cs)
  | cs => (false, cs)

/-- A decimal integer has no zero in front of other digits. -/
def readDecimal? (cs : List Char) : Option Int := do
  let (negative, digits) := takeSign cs
  if digits.head? = some '0' ∧ digits ≠ ['0'] then none
  else
    let n ← readRadix? 10 digits
    return if negative then -Int.ofNat n else Int.ofNat n

def readInt? (cs : List Char) : Option Int := do
  let n ← match cs with
    | '0' :: 'x' :: digits => (readRadix? 16 digits).map Int.ofNat
    | '0' :: 'o' :: digits => (readRadix? 8 digits).map Int.ofNat
    | '0' :: 'b' :: digits => (readRadix? 2 digits).map Int.ofNat
    | cs => readDecimal? cs
  return (← Number.Word.ofInt? n).toInt

/-- The parts of a number with a fraction or an exponent, each without its underscores. -/
def ungroupParts? (cs : List Char) : Option (List Char) := do
  let mantissa := cs.takeWhile fun c => c != 'e' && c != 'E'
  let (whole, fraction) := Text.splitFirst '.' mantissa
  let (sign, exponent) := (cs.drop (mantissa.length + 1)).span fun c => c == '+' || c == '-'
  let fraction ← match fraction with
    | none => some []
    | some digits => (ungroup? digits).map ('.' :: ·)
  let exponent ← if mantissa.length = cs.length then some []
    else (ungroup? exponent).map (['e'] ++ sign ++ ·)
  return (← ungroup? whole) ++ fraction ++ exponent

/-- Whether a word is a floating-point number that is not too great. -/
def isFloat (cs : List Char) : Bool :=
  let (negative, cs) := takeSign cs
  match (ungroupParts? cs).bind (Json.lexNumber negative) with
  | some (numeral, []) =>
    let (digits, exponent) := numeral.decimal
    !numeral.isInteger && !Number.Binary.overflows digits exponent
  | _ => false

/-- The words for what is beyond all numbers or no number. -/
def isNonFinite (cs : List Char) : Bool :=
  let (_, word) := takeSign cs
  word == "inf".toList || word == "nan".toList

/-! ## Times -/

/-- The number that two digits denote, if it lies between two bounds. -/
def pair? (least greatest : Nat) : List Char → Option Nat
  | [a, b] =>
    let n := 10 * Number.Decimal.digitValue a + Number.Decimal.digitValue b
    if isDigit a ∧ isDigit b ∧ least ≤ n ∧ n ≤ greatest then some n else none
  | _ => none

def isLeapYear (year : Nat) : Bool :=
  year % 4 == 0 && (year % 100 != 0 || year % 400 == 0)

def daysIn (year month : Nat) : Nat :=
  if month = 2 then (if isLeapYear year then 29 else 28)
  else if month = 4 ∨ month = 6 ∨ month = 9 ∨ month = 11 then 30
  else 31

def isDate (cs : List Char) : Bool :=
  match Text.split '-' cs with
  | [year, month, day] =>
    year.length == 4 && year.all isDigit &&
      match pair? 1 12 month with
      | some month => (pair? 1 (daysIn (Number.Decimal.ofDigits year) month) day).isSome
      | none => false
  | _ => false

def isTime (cs : List Char) : Bool :=
  let (clock, fraction) := Text.splitFirst '.' cs
  let isWhole := match Text.split ':' clock with
    | [hour, minute, second] =>
      (pair? 0 23 hour).isSome && (pair? 0 59 minute).isSome && (pair? 0 60 second).isSome
    | _ => false
  isWhole && match fraction with
    | none => true
    | some digits => !digits.isEmpty && digits.all isDigit

def isShift (cs : List Char) : Bool :=
  match Text.split ':' cs with
  | [hour, minute] => (pair? 0 23 hour).isSome && (pair? 0 59 minute).isSome
  | _ => false

/-- A time of day with or without its distance from universal time. -/
def isShiftedTime (cs : List Char) : Bool :=
  let clock := cs.takeWhile fun c => isDigit c || c == ':' || c == '.'
  isTime clock &&
    match cs.drop clock.length with
    | [] => true
    | [z] => z == 'Z' || z == 'z'
    | sign :: shift => (sign == '+' || sign == '-') && isShift shift

def isMoment (cs : List Char) : Bool :=
  isDate cs || isTime cs ||
    (isDate (cs.take 10) &&
      match cs.drop 10 with
      | mark :: time => (mark == 'T' || mark == 't' || mark == ' ') && isShiftedTime time
      | [] => false)

/-! ## Words -/

def isWordChar (c : Char) : Bool :=
  c.isAlphanum || c == '+' || c == '-' || c == '_' || c == '.' || c == ':'

/-- The word that a text starts with. A date takes a time after one space along. -/
def takeWord (cs : List Char) : List Char × List Char :=
  let (word, rest) := cs.span isWordChar
  match rest with
  | ' ' :: d :: more =>
    if isDate word ∧ isDigit d then
      let (time, rest) := (d :: more).span isWordChar
      (word ++ ' ' :: time, rest)
    else (word, rest)
  | _ => (word, rest)

def ofWord? (word : List Char) : Option Setting :=
  if word = "true".toList then some (.flag true)
  else if word = "false".toList then some (.flag false)
  else
    match readInt? word with
    | some n => some (.int n)
    | none =>
      if isNonFinite word then some .null
      else if isFloat word || isMoment word then some .other
      else none

/-- Reads a value that holds no other values. -/
def readScalar (cs : List Char) : Option (Setting × List Char) :=
  match cs with
  | '"' :: _ | '\'' :: _ => (readString cs).map fun (s, rest) => (.text s, rest)
  | _ =>
    let (word, rest) := takeWord cs
    (ofWord? word).map fun setting => (setting, rest)

end TorrentControl.Toml

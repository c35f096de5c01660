import TorrentControl.Config.Toml.Text
import TorrentControl.Config.Toml.Scalar
import TorrentControl.Text.Blank

/-! # Settings from environment variables

A variable whose name starts with the program's own says something about the setting that the rest of
its name spells. Two underscores or a point lead into a table. A value with a comma is a list of
texts, unless it starts like a value in brackets or quotes; any other value is a number, a truth
value, a list, a table or a text, whatever it looks like. Variables are not merged: of all that are
about one setting or something inside it, only the last one counts. -/

namespace TorrentControl.Environment

/-! ## Names -/

/-- What every name starts with, in letters of either case. -/
def mark : List Char :=
  "switchboard_".toList

/-- Puts a point in the place of every two underscores. -/
def pointUnderscores : List Char → List Char
  | '_' :: '_' :: rest => '.' :: pointUnderscores rest
  | c :: rest => c :: pointUnderscores rest
  | [] => []

/-- The path of the setting that a variable is about. Blanks at the ends of the name and of what
follows the mark do not count, and a name with an empty key in it is about nothing. -/
def path? (name : String) : Option (List String) :=
  let cs := (Text.trimChars name.toList).map Char.toLower
  if mark.isPrefixOf cs then
    let keys := Text.split '.' (Text.trimChars (pointUnderscores (cs.drop mark.length)))
    if keys.contains [] then none else some (keys.map String.ofList)
  else none

/-! ## Values -/

def isSeparator (c : Char) : Bool :=
  c == ',' || c == '[' || c == ']' || c == '\x7b' || c == '\x7d'

def isSpace (c : Char) : Bool :=
  c == ' ' || c == '\t' || c == '\n' || c == '\r' || c == '\x0c'

def skipSpaces (cs : List Char) : List Char :=
  cs.dropWhile isSpace

def isKeyChar (c : Char) : Bool :=
  c.isAlphanum || c == '_' || c == '-'

/-- Reads an exponent; without its letter it is zero. -/
def readExponent? : List Char → Option Int
  | [] => some 0
  | letter :: rest =>
    let (negative, digits) := Toml.takeSign rest
    if letter = 'e' ∨ letter = 'E' then
      (Number.Decimal.readNat? digits).map fun n => if negative then -Int.ofNat n else Int.ofNat n
    else none

/-- Reads a number with a point in it as its digits and their exponent. A digit must stand on one
side of the point at least. -/
def readFloat? (cs : List Char) : Option (Nat × Int) :=
  match (Toml.takeSign cs).2.span Number.Decimal.isDigit with
  | (whole, '.' :: rest) =>
    let (fraction, rest) := rest.span Number.Decimal.isDigit
    if whole = [] ∧ fraction = [] then none
    else (readExponent? rest).map fun exponent =>
      (Number.Decimal.ofDigits (whole ++ fraction), exponent - fraction.length)
  | _ => none

/-- An integer of 64 bits with or without a sign bit. -/
def readInt? (cs : List Char) : Option Int :=
  (Number.Decimal.readInt? cs).filter fun n =>
    Number.Word.least ≤ n && n ≤ 2 * Number.Word.greatest + 1

/-- A word without brackets and quotes. A number that is too great says nothing. -/
def ofWord (word : List Char) : Setting :=
  match readFloat? word with
  | some (digits, exponent) => if Number.Binary.overflows digits exponent then .null else .other
  | none =>
    match readInt? word with
    | some n => .int n
    | none => .text (String.ofList word)

/-- The text after a word in lower case, which may stand there in letters of either case. -/
def dropWord? (word cs : List Char) : Option (List Char) :=
  if (cs.take word.length).map Char.toLower = word then some (cs.drop word.length) else none

/-- Reads a value that holds no other values. -/
def readScalar (cs : List Char) : Option (Setting × List Char) :=
  match dropWord? "true".toList cs, dropWord? "false".toList cs, cs with
  | some rest, _, _ => some (.flag true, rest)
  | _, some rest, _ => some (.flag false, rest)
  | _, _, '"' :: rest => (Toml.readLine '"' rest).map fun (s, rest) => (.text s, rest)
  | _, _, '\'' :: c :: '\'' :: rest => some (.text c.toString, rest)
  | _, _, '\'' :: _ => none
  | _, _, cs =>
    let (word, rest) := cs.span (!isSeparator ·)
    some (ofWord (Text.trimChars word), rest)

/-- Reads a key, which may stand in quotes. -/
def readKey : List Char → Option (String × List Char)
  | '"' :: rest => Toml.readLine '"' rest
  | cs =>
    match cs.span isKeyChar with
    | ([], _) => none
    | (key, rest) => some (String.ofList key, rest)

mutual
def readValue : Nat → List Char → Option (Setting × List Char)
  | 0, _ => none
  | fuel + 1, cs =>
    match skipSpaces cs with
    | '[' :: rest => (readItems fuel rest).map fun (items, rest) => (.list items, skipSpaces rest)
    | '\x7b' :: rest =>
      (readMembers fuel rest).map fun (members, rest) =>
        (.table (KeyMap.ofList members), skipSpaces rest)
    | cs => (readScalar cs).map fun (setting, rest) => (setting, skipSpaces rest)

def readItems : Nat → List Char → Option (List Setting × List Char)
  | 0, _ => none
  | fuel + 1, cs =>
    match cs with
    | ']' :: rest => some ([], rest)
    | cs => do
      let (item, rest) ← readValue fuel cs
      match rest with
      | ']' :: rest => return ([item], rest)
      | ',' :: rest =>
        let (items, rest) ← readItems fuel rest
        return (item :: items, rest)
      | _ => none

def readMembers : Nat → List Char → Option (List (String × Setting) × List Char)
  | 0, _ => none
  | fuel + 1, cs =>
    match cs with
    | '\x7d' :: rest => some ([], rest)
    | cs => do
      let (key, rest) ← readKey (skipSpaces cs)
      match skipSpaces rest with
      | '=' :: rest =>
        let (setting, rest) ← readValue fuel rest
        match rest with
        | '\x7d' :: rest => return ([(key, setting)], rest)
        | ',' :: rest =>
          let (members, rest) ← readMembers fuel rest
          return ((key, setting) :: members, rest)
        | _ => none
      | _ => none
end

/-- What a value says. A value that only starts well is a text. -/
def settingOf (value : String) : Setting :=
  let cs := Text.trimChars value.toList
  let opensQuoted := match cs with
    | c :: _ => c == '[' || c == '\x7b' || c == '"' || c == '\''
    | [] => false
  if cs.contains ',' && !opensQuoted then
    .list ((Text.split ',' cs).map fun item => .text (String.ofList (Text.trimChars item)))
  else
    match readValue (2 * cs.length + 1) cs with
    | some (setting, []) => setting
    | _ => .text (String.ofList cs)

/-- What all the variables together say. The last one about a setting takes the place of all that is
said before about it or about something inside it. -/
def settings (environment : List (String × String)) : Setting :=
  .table (environment.foldl (fun entries (name, value) =>
    match path? name with
    | some (key :: path) => KeyMap.insert entries key (.nest path (settingOf value))
    | _ => entries) [])

end TorrentControl.Environment

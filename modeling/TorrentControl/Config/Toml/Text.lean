import TorrentControl.Text.Hex

/-! # Strings of TOML

A string stands between quotes. Between double quotes a backslash starts an escape, between single
quotes nothing does. Three quotes open a string that may go over several lines; a line break right
after them is left out, and an escaped line break goes with all the blank space after it. A carriage
return before a line feed is gone before a text is read. -/

namespace TorrentControl.Toml

/-- Characters that may stand for themselves within a line. -/
def isPlain (c : Char) : Bool :=
  c == '\t' || (' ' ≤ c && c != '\x7f')

def isSpace (c : Char) : Bool :=
  c == ' ' || c == '\t'

/-! ## Escapes -/

/-- The character that a one-letter escape stands for. -/
def escaped? : Char → Option Char
  | '"' => some '"'
  | '\\' => some '\\'
  | 'b' => some '\x08'
  | 'f' => some '\x0c'
  | 'n' => some '\n'
  | 'r' => some '\r'
  | 't' => some '\t'
  | _ => none

/-- The character whose number hexadecimal digits denote. -/
def charOfHex? (digits : List Char) : Option Char := do
  let n ← digits.foldlM (fun n d => (Text.Hex.digitValue? d).map (16 * n + ·)) 0
  if n.isValidChar then some (Char.ofNat n) else none

def startsLine : List Char → Bool
  | '\n' :: _ => true
  | _ => false

/-- Replaces the escapes in the body of a string. `lines` says whether it may hold line breaks, and
`skipping` whether blank space is being left out after an escaped one. -/
def unescape (lines : Bool) : Bool → List Char → Option (List Char)
  | _, [] => some []
  | _, '\\' :: rest =>
    if lines && startsLine (rest.dropWhile isSpace) then unescape lines true rest
    else
      match rest with
      | 'u' :: a :: b :: c :: d :: rest =>
        return (← charOfHex? [a, b, c, d]) :: (← unescape lines false rest)
      | 'U' :: a :: b :: c :: d :: e :: f :: g :: h :: rest =>
        return (← charOfHex? [a, b, c, d, e, f, g, h]) :: (← unescape lines false rest)
      | e :: rest => return (← escaped? e) :: (← unescape lines false rest)
      | [] => none
  | skipping, c :: rest =>
    if skipping && (isSpace c || c == '\n') then unescape lines true rest
    else if isPlain c || (lines && c == '\n') then
      (unescape lines false rest).map (c :: ·)
    else none

/-! ## Where a string ends -/

/-- The text up to the closing quote, and the text after it. -/
def takeLine (quote : Char) : List Char → Option (List Char × List Char)
  | [] => none
  | c :: rest =>
    if c = quote then some ([], rest)
    else if c = '\\' ∧ quote = '"' then
      match rest with
      | [] => none
      | e :: rest => (takeLine quote rest).map fun (body, rest) => (c :: e :: body, rest)
    else (takeLine quote rest).map fun (body, rest) => (c :: body, rest)

/-- The text up to three closing quotes. Of up to five in a row the last three close. -/
def takeLines (quote : Char) : List Char → Option (List Char × List Char)
  | [] => none
  | c :: rest =>
    if c = quote ∧ rest.take 2 = [quote, quote] then
      let more := ((rest.drop 2).take 2).takeWhile (· == quote)
      some (more, rest.drop (2 + more.length))
    else if c = '\\' ∧ quote = '"' then
      match rest with
      | [] => none
      | e :: rest => (takeLines quote rest).map fun (body, rest) => (c :: e :: body, rest)
    else (takeLines quote rest).map fun (body, rest) => (c :: body, rest)

/-- What the body of a string stands for. -/
def content (quote : Char) (lines : Bool) (body : List Char) : Option (List Char) :=
  if quote = '"' then unescape lines false body
  else if body.all fun c => isPlain c || (lines && c == '\n') then some body
  else none

/-! ## Reading -/

/-- Reads the rest of a string on one line after its opening quote. -/
def readLine (quote : Char) (cs : List Char) : Option (String × List Char) := do
  let (body, rest) ← takeLine quote cs
  return (String.ofList (← content quote false body), rest)

def dropLineStart : List Char → List Char
  | '\n' :: rest => rest
  | cs => cs

/-- Reads the rest of a string over several lines after its three opening quotes. -/
def readLines (quote : Char) (cs : List Char) : Option (String × List Char) := do
  let (body, rest) ← takeLines quote (dropLineStart cs)
  return (String.ofList (← content quote true body), rest)

/-- Reads a string with its quotes. -/
def readString : List Char → Option (String × List Char)
  | '"' :: '"' :: '"' :: rest => readLines '"' rest
  | '\'' :: '\'' :: '\'' :: rest => readLines '\'' rest
  | '"' :: rest => readLine '"' rest
  | '\'' :: rest => readLine '\'' rest
  | _ => none

end TorrentControl.Toml

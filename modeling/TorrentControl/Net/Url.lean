import TorrentControl.Net.HostName
import TorrentControl.Net.Ipv4
import TorrentControl.Net.Ipv6
import TorrentControl.Text.Percent

/-! # URLs

A URL is read as browsers read it: control characters and spaces at the ends and line breaks anywhere
do not count, characters that may not stand in a path are percent-encoded, and segments of points are
resolved. Of what comes after the path, and of user names, nothing is kept. Schemes of the web take a
backslash for a slash and need a host, which is a name or an address; with the scheme `file` it may be
missing. The path of a file is not kept either. -/

namespace TorrentControl.Net

inductive UrlError where
  | relative
  | emptyHost
  | badPort
  | badHostCharacter
  | badHostName
  | badIpv4
  | badIpv6
deriving DecidableEq, Repr

def UrlError.message : UrlError → String
  | .relative => "relative URL without a base"
  | .emptyHost => "empty host"
  | .badPort => "invalid port number"
  | .badHostCharacter => "invalid domain character"
  | .badHostName => "invalid international domain name"
  | .badIpv4 => "invalid IPv4 address"
  | .badIpv6 => "invalid IPv6 address"

structure Url where
  /-- In lower case. -/
  scheme : String
  /-- An IPv6 address has its brackets. -/
  host : Option String
  port : Option UInt16
  path : String
deriving DecidableEq, Repr

namespace Url

/-! ## Characters -/

def isAsciiLetter (c : Char) : Bool :=
  ('a' ≤ c && c ≤ 'z') || ('A' ≤ c && c ≤ 'Z')

def isSchemeChar (c : Char) : Bool :=
  isAsciiLetter c || Number.Decimal.isDigit c || c == '+' || c == '-' || c == '.'

def isTrimmed (c : Char) : Bool :=
  c.toNat ≤ 0x20

def isLineChar (c : Char) : Bool :=
  c == '\t' || c == '\n' || c == '\r'

def isNoControl (c : Char) : Bool :=
  0x20 ≤ c.toNat && c.toNat < 0x7F

/-- The characters that stand for themselves in a path. -/
def isPathChar (c : Char) : Bool :=
  isNoControl c &&
    !([' ', '"', '<', '>', '\x60', '#', '?', '\x7b', '\x7d'] : List Char).contains c

/-- The characters that a host must not have, where it is not a name of the web. -/
def isBadInHost (c : Char) : Bool :=
  (['\x00', '\t', '\n', '\r', ' ', '#', '/', ':', '<', '>', '?', '@', '[', '\\', ']', '^', '|'] :
    List Char).contains c

/-- The text without what does not count in it. -/
def relevant (text : String) : List Char :=
  let cs := text.toList.dropWhile isTrimmed
  (cs.reverse.dropWhile isTrimmed).reverse.filter fun c => !isLineChar c

def schemeOf? (cs : List Char) : Option (String × List Char) :=
  let (scheme, rest) := cs.span isSchemeChar
  match scheme, rest with
  | first :: _, ':' :: rest =>
    if isAsciiLetter first then some ((String.ofList scheme).toLower, rest) else none
  | _, _ => none

def isWeb (scheme : String) : Bool :=
  ["http", "https", "ws", "wss", "ftp"].contains scheme

/-! ## Paths -/

/-- Everything before the query and the fragment. -/
def beforeQuery (cs : List Char) : List Char :=
  cs.takeWhile fun c => c != '?' && c != '#'

/-- A segment in which encoded points are points. -/
def decodePoints : List Char → List Char
  | '%' :: '2' :: 'e' :: rest => '.' :: decodePoints rest
  | '%' :: '2' :: 'E' :: rest => '.' :: decodePoints rest
  | c :: rest => c :: decodePoints rest
  | [] => []

/-- A letter and a colon or a bar, as drives are named. -/
def isDrive : List Char → Bool
  | [letter, mark] => isAsciiLetter letter && (mark == ':' || mark == '|')
  | letter :: mark :: next :: _ =>
    isAsciiLetter letter && (mark == ':' || mark == '|') && next == '\\'
  | _ => false

/-- Takes the last of the kept segments away, unless it names a drive. -/
def goUp : List (List Char) → List (List Char)
  | [] => []
  | last :: rest => if isDrive last then last :: rest else rest

/-- The path over the kept segments, the last of which comes first, and the open one. -/
def assemble (kept : List (List Char)) (current : List Char) : List Char :=
  '/' :: (kept.reverse.flatMap fun segment => segment ++ ['/']) ++ current

/-- Resolves the segments of points. -/
def resolve (kept : List (List Char)) : List (List Char) → List Char
  | [] => assemble kept []
  | [last] =>
    if decodePoints last = ['.', '.'] then assemble (goUp kept) []
    else if decodePoints last = ['.'] then assemble kept []
    else assemble kept last
  | segment :: rest =>
    if decodePoints segment = ['.', '.'] then resolve (goUp kept) rest
    else if decodePoints segment = ['.'] then resolve kept rest
    else resolve (segment :: kept) rest

/-- The path from the root, of what stands behind its first slash. -/
def rootedPath (web : Bool) (cs : List Char) : String :=
  let slashed := cs.map fun c => if web && c == '\\' then '/' else c
  let segments := (Text.split '/' slashed).map (Text.Percent.encode isPathChar)
  String.ofList (resolve [] segments)

/-- The path behind an authority. -/
def pathAfterAuthority (web : Bool) (cs : List Char) : String :=
  match beforeQuery cs with
  | '/' :: rest => rootedPath web rest
  | [] => if web then "/" else ""
  | '\\' :: rest => rootedPath web (if web then rest else '\\' :: rest)
  | rest => rootedPath web rest

/-! ## Authorities -/

def endsAuthority (web : Bool) (c : Char) : Bool :=
  c == '/' || c == '?' || c == '#' || (web && c == '\\')

/-- The text before the last at sign, if there is one, and the text after it. -/
def splitUser (cs : List Char) : Option (List Char) × List Char :=
  let place := cs.reverse.takeWhile (· != '@')
  match cs.reverse.dropWhile (· != '@') with
  | [] => (none, cs)
  | _ :: user => (some user.reverse, place.reverse)

/-- The host, up to the first colon that is not inside brackets, and the text after it. -/
def splitHost (bracketed : Bool) : List Char → List Char × List Char
  | [] => ([], [])
  | c :: rest =>
    if c = ':' ∧ !bracketed then ([], c :: rest)
    else
      let inside := c = '[' || (bracketed && c != ']')
      let (host, after) := splitHost inside rest
      (c :: host, after)

/-- A name of the web that ends in a number can only be an address. -/
def readWebName (cs : List Char) : Except UrlError String :=
  match HostName.read? cs with
  | none => .error .badHostName
  | some [] => .error .emptyHost
  | some name =>
    if Ipv4.endsInNumber name then
      match Ipv4.readWeb? name with
      | some address => .ok (Ipv4.write address)
      | none => .error .badIpv4
    else .ok (String.ofList name)

def readHost (web : Bool) (cs : List Char) : Except UrlError String :=
  match cs with
  | '[' :: rest =>
    match rest.reverse with
    | ']' :: inner =>
      match Ipv6.read? inner.reverse with
      | some groups => .ok ("[" ++ Ipv6.write groups ++ "]")
      | none => .error .badIpv6
    | _ => .error .badIpv6
  | cs =>
    if web then readWebName cs
    else if cs.any isBadInHost then .error .badHostCharacter
    else .ok (String.ofList (Text.Percent.encode isNoControl cs))

/-- Reads the digits behind a colon. A backslash may follow them. -/
def readPort (cs : List Char) : Except UrlError (Option UInt16 × List Char) :=
  let (digits, rest) := cs.span Number.Decimal.isDigit
  let n := Number.Decimal.ofDigits digits
  if 65535 < n ∨ (rest ≠ [] ∧ rest.head? ≠ some '\\') then .error .badPort
  else .ok (if digits = [] then none else some (UInt16.ofNat n), rest)

def readAuthority (web : Bool) (scheme : String) (cs : List Char) : Except UrlError Url := do
  let (authority, tail) := cs.span fun c => !endsAuthority web c
  let (user, place) := splitUser authority
  if user = some [] ∧ place = [] ∧ tail ≠ [] then throw .emptyHost
  let (hostText, rest) := splitHost false place
  let host ← if web && hostText.isEmpty then throw .emptyHost else readHost web hostText
  let isNamed := (user.getD [] ≠ [] : Bool) && user.getD [] != [':']
  if host = "" ∧ (rest ≠ [] ∨ isNamed) then throw .emptyHost
  let (port, rest) ← match rest with
    | [] => pure (none, [])
    | _ :: digits => readPort digits
  return {
    scheme
    host := if host = "" then none else some host
    port
    path := pathAfterAuthority web (rest ++ tail) }

/-- The host that a file lies at, if one is named after two slashes. A drive is none. -/
def readFileHost (cs : List Char) : Except UrlError (Option String) :=
  match cs with
  | a :: b :: rest =>
    let host := rest.takeWhile fun c => !endsAuthority true c
    let isSlash (c : Char) := c == '/' || c == '\\'
    if !isSlash a || !isSlash b || host.isEmpty || (host.length == 2 && isDrive host) then .ok none
    else some <$> readHost true host
  | _ => .ok none

/-! ## Whole URLs -/

def parse (text : String) : Except UrlError Url :=
  match schemeOf? (relevant text) with
  | none => .error .relative
  | some (scheme, rest) =>
    if scheme = "file" then return ⟨scheme, ← readFileHost rest, none, ""⟩
    else if isWeb scheme then
      readAuthority true scheme (rest.dropWhile fun c => c == '/' || c == '\\')
    else
      match rest with
      | '/' :: '/' :: rest => readAuthority false scheme rest
      | '/' :: rest => .ok ⟨scheme, none, none, rootedPath false (beforeQuery rest)⟩
      | rest =>
        .ok ⟨scheme, none, none, String.ofList (Text.Percent.encode isNoControl (beforeQuery rest))⟩

end Url

end TorrentControl.Net

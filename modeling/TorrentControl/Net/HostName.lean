import TorrentControl.Net.HostName.Image
import TorrentControl.Net.HostName.Script
import TorrentControl.Text.Hidden
import TorrentControl.Text.Percent
import TorrentControl.Text.Punycode
import TorrentControl.Text.Split

/-! # Host names of the web

A host name is a list of labels with points between them, in characters of all scripts. It is read
without its percent encoding, as the images of its characters. A label that starts with `xn--` spells
another one, which takes its place. What comes out must be fit to be shown: no label may start with a
mark, invisible joiners must join something, and labels in scripts of two directions must not get
mixed up. -/

namespace TorrentControl.Net.HostName

open Text (isWithin)

/-! ## Images -/

def isAscii (c : Char) : Bool :=
  c.toNat < 0x80

/-- Keeps letters apart that would join. -/
def nonJoiner : Char := '\u200C'

/-- Joins letters that would not. -/
def joiner : Char := '\u200D'

/-- Characters of ASCII that do not show or have a meaning of their own in an address. -/
def isReserved (c : Char) : Bool :=
  c ≤ ' ' || c == '\x7f' ||
    (['#', '%', '/', ':', '<', '>', '?', '@', '[', '\\', ']', '^', '|'] : List Char).contains c

def isRefused (c : Char) : Bool :=
  c != nonJoiner && c != joiner && (isWithin refusedRanges c ||
    isWithin Text.muteRanges c || isWithin Text.unassignedRanges c)

def plainImage? (c : Char) : Option Char :=
  (plainRanges.find? fun (first, last, _) => first ≤ c.toNat && c.toNat ≤ last).map
    fun (first, _, image) => Char.ofNat (image + (c.toNat - first))

def spelledImage? (c : Char) : Option (List Char) :=
  spelledOut.findSome? fun (first, images) =>
    if first ≤ c.toNat then (Text.split ' ' images.toList)[c.toNat - first]? else none

/-- The image of a character, which is empty for one that is left out; a character that must not
stand in a name has none. Of the images without ASCII characters in them only one thing matters:
they are of the same kind as the character itself, which stands in for them. -/
def image? (c : Char) : Option (List Char) :=
  if isAscii c then (if isReserved c then none else some [c.toLower])
  else if isWithin ignoredRanges c then some []
  else if isRefused c then none
  else
    match plainImage? c with
    | some image => some [image]
    | none => some ((spelledImage? c).getD [c])

def isFolded (c : Char) : Bool :=
  foldedRanges.any fun (first, last, step) =>
    first ≤ c.toNat && c.toNat ≤ last && (c.toNat - first) % step == 0

def isOwnImage (c : Char) : Bool :=
  image? c == some [c] && !isFolded c

/-! ## Labels -/

/-- The longest spelling of a label that is read. -/
def longestSpelling : Nat := 2000

/-- The longest label with characters beyond ASCII in it. -/
def longestLabel : Nat := 1000

/-- What a label stands for. A label that spells another one must need to, and the other one must
consist of images. -/
def readLabel? : List Char → Option (List Char)
  | 'x' :: 'n' :: '-' :: '-' :: code => do
    if longestSpelling < code.length then none
    let label ← Text.Punycode.decode? code
    if label.all isAscii || !label.all isOwnImage then none else return label
  | label => if longestLabel < label.length && !label.all isAscii then none else some label

def isMark (c : Char) : Bool :=
  c != nonJoiner && (isWithin Text.joiningRanges c || isWithin spacingMarkRanges c)

def isNonspacingMark (c : Char) : Bool :=
  isMark c && !isWithin spacingMarkRanges c

/-- The letter that comes next, apart from the marks before it. -/
def nextLetter? (cs : List Char) : Option Char :=
  (cs.dropWhile isNonspacingMark).head?

def joinsForward (c : Char) : Bool :=
  isWithin dualJoiningRanges c || isWithin forwardJoiningRanges c

def joinsBackward (c : Char) : Bool :=
  isWithin dualJoiningRanges c || isWithin backwardJoiningRanges c

def isAfterVirama (before : List Char) : Bool :=
  before.head?.any (isWithin viramaRanges)

def isBetweenLetters (before after : List Char) : Bool :=
  (nextLetter? before).any joinsForward && (nextLetter? after).any joinsBackward

/-- Whether the joiners in a text have something to join, or to keep apart. `before` is the text
before it, the nearest character first. -/
def joinersFit (before : List Char) : List Char → Bool
  | [] => true
  | c :: after =>
    (if c = joiner then isAfterVirama before
      else c ≠ nonJoiner || isAfterVirama before || isBetweenLetters before after) &&
    joinersFit (c :: before) after

def isWellFormed (label : List Char) : Bool :=
  !label.head?.any isMark && joinersFit [] label

/-! ## Directions -/

inductive Direction where
  | right
  | left
  | digit
  | arabicDigit
  | mark
  | neutral
deriving DecidableEq, Repr

def directionOf (c : Char) : Direction :=
  if isAscii c then (if c.isAlpha then .right else if c.isDigit then .digit else .neutral)
  else if isWithin leftwardRanges c then .left
  else if isWithin arabicDigitRanges c then .arabicDigit
  else if isWithin rightwardDigitRanges c then .digit
  else if isNonspacingMark c then .mark
  else if c = nonJoiner || c = joiner || isWithin neutralRanges c then .neutral
  else .right

/-- Whether the characters of a label stay in one direction. The first one must be a letter, and the
last one apart from marks a letter or a digit. -/
def isDirected (directions : List Direction) : Bool :=
  let last := (directions.reverse.dropWhile (· == .mark)).head?
  match directions.head? with
  | none => true
  | some .right =>
    !directions.contains .left && !directions.contains .arabicDigit &&
      (last == some .right || last == some .digit)
  | some .left =>
    !directions.contains .right && last != some .neutral &&
      !(directions.contains .digit && directions.contains .arabicDigit)
  | some _ => false

/-- Labels matter for each other's directions only if one is written to the left. -/
def areDirected (labels : List (List Char)) : Bool :=
  let directions := labels.map fun label => label.map directionOf
  let isLeftward := directions.any fun ds => ds.contains .left || ds.contains .arabicDigit
  !isLeftward || directions.all isDirected

/-! ## Names -/

/-- The name that a text denotes. -/
def read? (cs : List Char) : Option (List Char) := do
  let (decoded, isText) := Text.Utf8.decodeStrict (Text.Percent.decode cs)
  if !isText then none
  else
    let images ← decoded.mapM image?
    let labels ← (Text.split '.' images.flatten).mapM readLabel?
    if labels.all isWellFormed && areDirected labels then
      return (labels.intersperse ['.']).flatten
    else none

end TorrentControl.Net.HostName

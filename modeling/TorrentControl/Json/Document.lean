import TorrentControl.Json.Token
import TorrentControl.Text.Utf8

/-! # JSON documents

A document is a JSON text as a tree, as far as it can be read from the left. Where the text breaks
off or goes wrong, the tree says so at that place: the value is `broken`, or the array or object is
not closed. A decoder that walks the tree in order therefore meets the first problem of the text
first, be it one of form or one of content. -/

namespace TorrentControl.Json

/-- How an array or an object ends: closed, or in front of something that cannot follow. -/
inductive Ending where
  | closed
  | stopped (next : Option Token)
deriving DecidableEq, Repr

/-- A text or a key without content has half of a surrogate pair in it. -/
inductive Document where
  | null
  | bool (b : Bool)
  | number (n : Numeral)
  | text (content : Option String)
  | array (items : List Document) (ending : Ending)
  | object (members : List (Option String × Document)) (ending : Ending)
  | broken
deriving Inhabited

namespace Document

/-! ## Reading

Each reader takes tokens and answers what it read with the tokens after it, or with none of them
if it cannot go on. -/

/-- Fewer tokens than there were. -/
abbrev Rest (ts : List Token) := { rest : List Token // rest.length < ts.length }

def Rest.widen {few ts : List Token} (h : few.length < ts.length) (rest : Rest few) : Rest ts :=
  ⟨rest.val, Nat.lt_trans rest.property h⟩

/-- What follows the first of the remaining tokens. -/
def after {ts more : List Token} {t : Token} (rest : Rest ts) (h : rest.val = t :: more) :
    Rest ts :=
  ⟨more, by have := rest.property; rw [h] at this; simp only [List.length_cons] at this; omega⟩

def content (pieces : List Piece) : Option String :=
  (joinPieces pieces).map String.ofList

mutual
/-- Reads one value. Arrays and objects may nest `limit` deep. -/
def readValue (limit : Nat) (ts : List Token) : Document × Option (Rest ts) :=
  match ts with
  | .null :: rest => (.null, some ⟨rest, by simp⟩)
  | .bool b :: rest => (.bool b, some ⟨rest, by simp⟩)
  | .number n :: rest => (.number n, some ⟨rest, by simp⟩)
  | .string pieces :: rest => (.text (content pieces), some ⟨rest, by simp⟩)
  | .openBracket :: rest =>
    match limit with
    | 0 => (.broken, none)
    | inner + 1 =>
      match rest with
      | .closeBracket :: more =>
        (.array [] .closed, some ⟨more, by simp only [List.length_cons]; omega⟩)
      | rest =>
        let (items, ending, last) := readItems inner rest
        (.array items ending, last.map (Rest.widen (by simp)))
  | .openBrace :: rest =>
    match limit with
    | 0 => (.broken, none)
    | inner + 1 =>
      match rest with
      | .closeBrace :: more =>
        (.object [] .closed, some ⟨more, by simp only [List.length_cons]; omega⟩)
      | rest =>
        let (members, ending, last) := readMembers inner rest
        (.object members ending, last.map (Rest.widen (by simp)))
  | _ => (.broken, none)
termination_by (ts.length, 0)
decreasing_by
  · apply Prod.Lex.left; simp
  · apply Prod.Lex.left; simp

/-- Reads the items of an array from the first of them on, up to its closing bracket. -/
def readItems (limit : Nat) (ts : List Token) : List Document × Ending × Option (Rest ts) :=
  match readValue limit ts with
  | (item, none) => ([item], .stopped none, none)
  | (item, some rest) =>
    match h : rest.val with
    | .closeBracket :: more => ([item], .closed, some (after rest h))
    | .comma :: more =>
      let (items, ending, last) := readItems limit more
      (item :: items, ending, last.map (Rest.widen (after rest h).property))
    | more => ([item], .stopped more.head?, none)
termination_by (ts.length, 1)
decreasing_by
  · apply Prod.Lex.right; omega
  · apply Prod.Lex.left; exact (after rest h).property

/-- Reads the members of an object from the first of them on, up to its closing brace. A member
whose colon is missing has a broken value. -/
def readMembers (limit : Nat) (ts : List Token) :
    List (Option String × Document) × Ending × Option (Rest ts) :=
  match ts with
  | .string pieces :: .colon :: rest =>
    match readValue limit rest with
    | (value, none) => ([(content pieces, value)], .stopped none, none)
    | (value, some rest) =>
      match h : rest.val with
      | .closeBrace :: more =>
        ([(content pieces, value)], .closed,
          some (Rest.widen (by simp only [List.length_cons]; omega) (after rest h)))
      | .comma :: more =>
        let (members, ending, last) := readMembers limit more
        ((content pieces, value) :: members, ending,
          last.map (Rest.widen
            (Nat.lt_trans (after rest h).property (by simp only [List.length_cons]; omega))))
      | more => ([(content pieces, value)], .stopped more.head?, none)
  | .string pieces :: _ => ([(content pieces, .broken)], .stopped none, none)
  | rest => ([], .stopped rest.head?, none)
termination_by (ts.length, 1)
decreasing_by
  · apply Prod.Lex.left; simp only [List.length_cons]; omega
  · apply Prod.Lex.left
    exact Nat.lt_trans (after rest h).property (by simp only [List.length_cons]; omega)
end

end Document

/-- A text as one document, and whether nothing stands after it. -/
structure Reading where
  document : Document
  isWhole : Bool

/-- Reads tokens as one document that nests at most `limit` deep. -/
def Reading.ofTokens (limit : Nat) (ts : List Token) : Reading :=
  match Document.readValue limit ts with
  | (document, some ⟨[], _⟩) => ⟨document, true⟩
  | (document, _) => ⟨document, false⟩

def Reading.ofText (limit : Nat) (text : String) : Reading :=
  ofTokens limit (tokens text.toList)

/-- Bytes that are not UTF-8 break off the text where they stand. -/
def Reading.ofBytes (limit : Nat) (bytes : List UInt8) : Reading :=
  match Text.Utf8.decodeStrict bytes with
  | (cs, true) => ofTokens limit (tokens cs)
  | (cs, false) => ofTokens limit (tokens cs ++ [.fault])

/-- The nesting that typed texts may have. -/
def nestingLimit : Nat := 127

/-! ## Writing -/

namespace Document

def int (n : Int) : Document :=
  .number (.ofInt n)

def string (s : String) : Document :=
  .text (some s)

def list (items : List Document) : Document :=
  .array items .closed

def record (members : List (String × Document)) : Document :=
  .object (members.map fun (key, value) => (some key, value)) .closed

/-- The escape of a character below U+0020, for the ones that have no letter. -/
def controlEscape (c : Char) : List Char :=
  ['\\', 'u', '0', '0'] ++ Text.Hex.encodeByte .lower (UInt8.ofNat c.toNat)

/-- A character as it stands inside a string. -/
def writeChar (c : Char) : List Char :=
  match c with
  | '"' => ['\\', '"']
  | '\\' => ['\\', '\\']
  | '\x08' => ['\\', 'b']
  | '\x0c' => ['\\', 'f']
  | '\n' => ['\\', 'n']
  | '\r' => ['\\', 'r']
  | '\t' => ['\\', 't']
  | c => if c.toNat < 0x20 then controlEscape c else [c]

def writeString (s : String) : List Char :=
  '"' :: s.toList.flatMap writeChar ++ ['"']

/-- What closes an array or an object. -/
def writeEnding (closing : Char) : Ending → List Char
  | .closed => [closing]
  | .stopped _ => []

mutual
/-- The compact text of a document. What could not be read of it is left out. -/
def write : Document → List Char
  | .null => "null".toList
  | .bool true => "true".toList
  | .bool false => "false".toList
  | .number n => n.chars
  | .text content => writeString (content.getD "")
  | .array items ending => '[' :: writeItems items ++ writeEnding ']' ending
  | .object members ending => '\x7b' :: writeMembers members ++ writeEnding '\x7d' ending
  | .broken => []

def writeItems : List Document → List Char
  | [] => []
  | [d] => write d
  | d :: e :: rest => write d ++ ',' :: writeItems (e :: rest)

def writeMembers : List (Option String × Document) → List Char
  | [] => []
  | [(key, d)] => writeString (key.getD "") ++ ':' :: write d
  | (key, d) :: member :: rest =>
    writeString (key.getD "") ++ ':' :: write d ++ ',' :: writeMembers (member :: rest)
end

def render (d : Document) : String :=
  String.ofList (write d)

/-! ## Wholeness -/

mutual
/-- Whether the document was read to its end, whatever the strings in it contain. -/
def isComplete : Document → Bool
  | .array items ending => areComplete items && ending == .closed
  | .object members ending => areMembersComplete members && ending == .closed
  | .broken => false
  | _ => true

def areComplete : List Document → Bool
  | [] => true
  | d :: rest => isComplete d && areComplete rest

def areMembersComplete : List (Option String × Document) → Bool
  | [] => true
  | (_, d) :: rest => isComplete d && areMembersComplete rest
end

end Document

end TorrentControl.Json

import TorrentControl.Json.Document

/-! # The grammar of JSON

What the texts of a document are, without any reader: a relation between documents and characters
with a rule for each form of a value. The exponent of a number has either letter and may have a plus
sign. A character of a string stands for itself, or it is escaped by a letter or by its units in
UTF-16, so that halves of surrogate pairs come together or not at all. -/

namespace TorrentControl.Json

/-- White space between tokens, or none. -/
def Spaces (cs : List Char) : Prop :=
  ∀ c ∈ cs, isSpace c = true

/-! ## Numbers -/

namespace Numeral

/-- A numeral as the grammar has it: the whole part is zero or starts with another digit, and a
part that is absent has no sign. -/
structure WellFormed (n : Numeral) : Prop where
  whole : ∀ c ∈ n.whole, isDigit c = true
  nonempty : n.whole ≠ []
  leading : n.whole.head? = some '0' → n.whole = ['0']
  fraction : ∀ c ∈ n.fraction, isDigit c = true
  exponent : ∀ c ∈ n.exponent, isDigit c = true
  unsigned : n.exponent = [] → n.exponentNegative = false

def signText (n : Numeral) : List Char :=
  if n.negative then ['-'] else []

def fractionText (n : Numeral) : List Char :=
  if n.fraction = [] then [] else '.' :: n.fraction

/-- The signs that the exponent may be written with. -/
def exponentSigns (n : Numeral) : List (List Char) :=
  if n.exponentNegative then [['-']] else [[], ['+']]

inductive ExponentText (n : Numeral) : List Char → Prop where
  | absent (h : n.exponent = []) : ExponentText n []
  | present {letter : Char} {sign : List Char} (h : n.exponent ≠ []) (hletter : letter ∈ ['e', 'E'])
      (hsign : sign ∈ n.exponentSigns) : ExponentText n (letter :: (sign ++ n.exponent))

/-- The characters are a number with these digits and signs. -/
inductive Spells (n : Numeral) : List Char → Prop where
  | mk {exponent : List Char} (hformed : n.WellFormed) (hexponent : ExponentText n exponent) :
      Spells n (n.signText ++ (n.whole ++ (n.fractionText ++ exponent)))

end Numeral

/-! ## Strings -/

/-- The letters that stand behind a backslash, and the characters that they stand for. -/
def letterEscapes : List (Char × Char) :=
  [('"', '"'), ('\\', '\\'), ('/', '/'), ('b', '\x08'), ('f', '\x0c'), ('n', '\n'), ('r', '\r'),
    ('t', '\t')]

/-- A character in UTF-16. -/
def utf16 (c : Char) : List Nat :=
  if c.toNat < 0x10000 then [c.toNat]
  else [0xD800 + (c.toNat - 0x10000) / 0x400, 0xDC00 + (c.toNat - 0x10000) % 0x400]

/-- Each unit in four hexadecimal digits of either case. -/
inductive UnitEscapes : List Nat → List Char → Prop where
  | nil : UnitEscapes [] []
  | cons {unit : Nat} {units : List Nat} {a b c d : Char} {text : List Char}
      (h : unit? a b c d = some unit) (hmore : UnitEscapes units text) :
      UnitEscapes (unit :: units) ('\\' :: 'u' :: a :: b :: c :: d :: text)

/-- A character that stands for itself in a string. -/
structure Plain (c : Char) : Prop where
  printable : 0x20 ≤ c.toNat
  not_quote : c ≠ '"'
  not_slash : c ≠ '\\'

inductive CharText (c : Char) : List Char → Prop where
  | plain (h : Plain c) : CharText c [c]
  | letter {e : Char} (h : (e, c) ∈ letterEscapes) : CharText c ['\\', e]
  | units {text : List Char} (h : UnitEscapes (utf16 c) text) : CharText c text

inductive CharsText : List Char → List Char → Prop where
  | nil : CharsText [] []
  | cons {c : Char} {cs text more : List Char} (hc : CharText c text) (hcs : CharsText cs more) :
      CharsText (c :: cs) (text ++ more)

/-! ## Documents -/

mutual
/-- The characters are a text of the document, with nothing around it. -/
inductive ValueText : Document → List Char → Prop where
  | null : ValueText .null ['n', 'u', 'l', 'l']
  | true : ValueText (.bool true) ['t', 'r', 'u', 'e']
  | false : ValueText (.bool false) ['f', 'a', 'l', 's', 'e']
  | number {n : Numeral} {cs : List Char} (h : n.Spells cs) : ValueText (.number n) cs
  | string {s : String} {cs : List Char} (h : CharsText s.toList cs) :
      ValueText (.text (some s)) ('"' :: (cs ++ ['"']))
  | emptyArray {cs : List Char} (h : Spaces cs) :
      ValueText (.array [] .closed) ('[' :: (cs ++ [']']))
  | array {items : List Document} {cs : List Char} (h : ItemsText items cs) :
      ValueText (.array items .closed) ('[' :: (cs ++ [']']))
  | emptyObject {cs : List Char} (h : Spaces cs) :
      ValueText (.object [] .closed) ('\x7b' :: (cs ++ ['\x7d']))
  | object {members : List (Option String × Document)} {cs : List Char}
      (h : MembersText members cs) : ValueText (.object members .closed) ('\x7b' :: (cs ++ ['\x7d']))

/-- The characters are a text of the document, with white space around it. -/
inductive PaddedText : Document → List Char → Prop where
  | mk {d : Document} {lead cs trail : List Char} (hlead : Spaces lead) (h : ValueText d cs)
      (htrail : Spaces trail) : PaddedText d (lead ++ (cs ++ trail))

/-- Items with commas between them. -/
inductive ItemsText : List Document → List Char → Prop where
  | one {d : Document} {cs : List Char} (h : PaddedText d cs) : ItemsText [d] cs
  | cons {d : Document} {items : List Document} {cs more : List Char} (h : PaddedText d cs)
      (hmore : ItemsText items more) : ItemsText (d :: items) (cs ++ ',' :: more)

/-- Members with commas between them. -/
inductive MembersText : List (Option String × Document) → List Char → Prop where
  | one {key : String} {d : Document} {ks cs : List Char} (hkey : PaddedText (.text (some key)) ks)
      (h : PaddedText d cs) : MembersText [(some key, d)] (ks ++ ':' :: cs)
  | cons {key : String} {d : Document} {members : List (Option String × Document)}
      {ks cs more : List Char} (hkey : PaddedText (.text (some key)) ks) (h : PaddedText d cs)
      (hmore : MembersText members more) :
      MembersText ((some key, d) :: members) (ks ++ ':' :: (cs ++ ',' :: more))
end

/-- **The text is JSON, and the document is what it says.** -/
def Spells (d : Document) (text : String) : Prop :=
  PaddedText d text.toList

end TorrentControl.Json

import TorrentControl.CommandError
import TorrentControl.Text.Blank
import TorrentControl.Text.Split
import TorrentControl.Text.Utf8

/-! # The command language

A statement is a key and, after an equals sign, its arguments: elements with commas between them.
An element is a text in double quotes, where a backslash takes the special meaning from the character
after it or stands for a line break or a tab; a list of elements in braces; or a bare run of characters, trimmed. No
arguments denote the empty value, one argument itself, and several a list of them. -/

namespace TorrentControl

structure Statement where
  key : String
  args : Value
deriving DecidableEq

/-- Why reading stops, with the number of bytes that are left at that point. -/
inductive Stop where
  | unexpected (c : Char) (remaining : Nat)
  | unterminatedList
  | unterminatedString
deriving DecidableEq, Repr

def Stop.fault (total : Nat) : Stop → ParseFault
  | .unexpected c remaining => .unexpected c (total - remaining)
  | .unterminatedList => .unterminatedList
  | .unterminatedString => .unterminatedString

namespace Arguments

open Text (isBlank trimChars)

/-! ## Elements -/

/-- No more characters than there were. -/
abbrev Rest (cs : List Char) := { rest : List Char // rest.length ≤ cs.length }

def Rest.widen {few cs : List Char} (h : few.length ≤ cs.length) (rest : Rest few) : Rest cs :=
  ⟨rest.val, Nat.le_trans rest.property h⟩

/-- What follows a character is shorter than what it was found at the front of. -/
theorem shorter {cs rest : List Char} {skipped : Rest cs} {c : Char}
    (h : skipped.val = c :: rest) : rest.length < cs.length := by
  have := skipped.property
  rw [h] at this
  simp only [List.length_cons] at this
  omega

theorem notLonger {cs rest : List Char} {skipped : Rest cs} (h : skipped.val = rest) :
    rest.length ≤ cs.length :=
  h ▸ skipped.property

def skipBlank (cs : List Char) : Rest cs :=
  ⟨cs.dropWhile isBlank, Text.dropWhile_length_le _ _⟩

/-- The character that an escaped one stands for. -/
def unescape : Char → Char
  | 'n' => '\n'
  | 't' => '\t'
  | c => c

/-- Reads the rest of a quoted text, its closing quote included. -/
def quoted : (cs : List Char) → Except Stop (List Char × Rest cs)
  | [] => .error .unterminatedString
  | '"' :: rest => .ok ([], ⟨rest, by simp⟩)
  | ['\\'] => .error .unterminatedString
  | '\\' :: c :: rest => do
    let (text, more) ← quoted rest
    return (unescape c :: text, more.widen (by simp only [List.length_cons]; omega))
  | c :: rest => do
    let (text, more) ← quoted rest
    return (c :: text, more.widen (by simp))

/-- The characters that a bare element may have. -/
def isBare (c : Char) : Bool :=
  c != ',' && c != '\x7d'

mutual
def element (cs : List Char) : Except Stop (Value × Rest cs) :=
  match h : (skipBlank cs).val with
  | '"' :: rest => do
    let (text, more) ← quoted rest
    return (.text (String.ofList text), more.widen (Nat.le_of_lt (shorter h)))
  | '\x7b' :: rest => do
    let (items, more) ← listBody rest
    return (.list items, more.widen (Nat.le_of_lt (shorter h)))
  | bare =>
    return (.text (String.ofList (trimChars (bare.takeWhile isBare))),
      ⟨bare.dropWhile isBare, Nat.le_trans (Text.dropWhile_length_le _ _) (notLonger h)⟩)
termination_by (cs.length, 0)
decreasing_by
  have := (skipBlank cs).property
  rw [h] at this
  apply Prod.Lex.left
  simp only [List.length_cons] at this
  omega

/-- Reads the elements of a list after its opening brace. -/
def listBody (cs : List Char) : Except Stop (List Value × Rest cs) :=
  match h : (skipBlank cs).val with
  | '\x7d' :: rest => return ([], ⟨rest, Nat.le_of_lt (shorter h)⟩)
  | _ => elements true cs
termination_by (cs.length, 2)
decreasing_by
  apply Prod.Lex.right
  omega

/-- Reads one element or more, up to the closing brace of a list or to the end of the text. -/
def elements (nested : Bool) (cs : List Char) : Except Stop (List Value × Rest cs) := do
  let (first, rest) ← element cs
  match h : (skipBlank rest.val).val with
  | ',' :: more =>
    let (others, last) ← elements nested more
    return (first :: others, last.widen (Nat.le_trans (Nat.le_of_lt (shorter h)) rest.property))
  | [] => if nested then throw .unterminatedList else return ([first], ⟨[], by simp⟩)
  | c :: more =>
    if nested ∧ c = '\x7d' then
      return ([first], ⟨more, Nat.le_trans (Nat.le_of_lt (shorter h)) rest.property⟩)
    else throw (.unexpected c (Text.Utf8.byteLength (c :: more)))
termination_by (cs.length, 1)
decreasing_by
  · apply Prod.Lex.right
    omega
  · have := (skipBlank rest.val).property
    rw [h] at this
    have := rest.property
    apply Prod.Lex.left
    simp only [List.length_cons] at *
    omega
end

/-- One element stands for itself, and several for the list of them. -/
def collect : List Value → Value
  | [v] => v
  | vs => .list vs

/-- The value of an argument text, empty if the text is blank. -/
def parse (text : String) : Except ParseFault Value :=
  if Text.isBlankText text then .ok .empty
  else
    match elements false text.toList with
    | .ok (vs, _) => .ok (collect vs)
    | .error stop => .error (stop.fault (Text.Utf8.byteLength text.toList))

end Arguments

namespace Statement

/-- Characters that a key must not have. Blanks around it do not count, and neither does an equals
sign, which would end it. -/
def isForbidden (c : Char) : Bool :=
  Text.isBlank c || c == '"' || c == '\x7b' || c == '\x7d' || c == ',' || c == ';'

def parse (text : String) : Except ParseFault Statement := do
  let (head, tail) := Text.splitFirst '=' text.toList
  let key := Text.trimChars head
  if key = [] then throw (.missingKey text)
  if key.any isForbidden then throw (.invalidKey (String.ofList key))
  match tail with
  | none => return ⟨String.ofList key, .empty⟩
  | some args => return ⟨String.ofList key, ← Arguments.parse (String.ofList args)⟩

end Statement

end TorrentControl

import TorrentControl.Statement

/-! # Scripts

A script is a sequence of statements with semicolons between them. A semicolon inside a quoted text
or inside braces does not end a statement. -/

namespace TorrentControl.Script

/-- Whether a scan is inside a quoted text and, if it is, right behind a backslash. -/
inductive Mode where
  | plain
  | quoted
  | escaped
deriving DecidableEq, Repr

/-- Puts a character in front of the first of several pieces. -/
def attach (c : Char) : List (List Char) → List (List Char)
  | [] => [[c]]
  | piece :: rest => (c :: piece) :: rest

/-- Cuts a text at the semicolons that are outside quotes and braces; `depth` braces are open. -/
def cut (depth : Nat) (mode : Mode) : List Char → Except ParseFault (List (List Char))
  | [] =>
    if mode ≠ .plain then throw .unterminatedStringInScript
    else if depth ≠ 0 then throw .unterminatedListInScript
    else return [[]]
  | c :: rest =>
    match mode with
    | .escaped => attach c <$> cut depth .quoted rest
    | .quoted =>
      attach c <$> cut depth (if c = '\\' then .escaped else if c = '"' then .plain else .quoted) rest
    | .plain =>
      if c = '"' then attach c <$> cut depth .quoted rest
      else if c = '\x7b' then attach c <$> cut (depth + 1) .plain rest
      else if c = '\x7d' then
        match depth with
        | 0 => throw .unbalancedScript
        | outer + 1 => attach c <$> cut outer .plain rest
      else if c = ';' ∧ depth = 0 then ([] :: ·) <$> cut 0 .plain rest
      else attach c <$> cut depth .plain rest

/-- The statements of a script, trimmed, the empty ones included. -/
def split (script : String) : Except ParseFault (List String) :=
  (List.map fun piece => String.ofList (Text.trimChars piece)) <$> cut 0 .plain script.toList

end TorrentControl.Script

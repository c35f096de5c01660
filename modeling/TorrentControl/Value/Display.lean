import TorrentControl.Number.Decimal
import TorrentControl.Text.Utf8
import TorrentControl.Value

/-! # Values as plain text

The text shown to people: scalars bare, raw bytes read as UTF-8 with replacement characters, lists
and maps in braces. It is not meant to be read back. -/

namespace TorrentControl.Value

mutual
def display : Value → String
  | .empty => ""
  | .int n => Number.Decimal.writeWord n
  | .text s => s
  | .raw bytes => Text.Utf8.decodeLossyText bytes
  | .list items => "\x7b" ++ displayItems items ++ "\x7d"
  | .map entries => "\x7b" ++ displayEntries entries ++ "\x7d"

/-- The items with a comma and a space between them. -/
def displayItems : List Value → String
  | [] => ""
  | [v] => display v
  | v :: w :: rest => display v ++ ", " ++ displayItems (w :: rest)

def displayEntries : List (String × Value) → String
  | [] => ""
  | [(key, v)] => key ++ ": " ++ display v
  | (key, v) :: entry :: rest => key ++ ": " ++ display v ++ ", " ++ displayEntries (entry :: rest)
end

end TorrentControl.Value

import TorrentControl.CommandError
import TorrentControl.Text.Blank

/-! # Arguments of one value

Commands that want an integer or a text take a value, or the first item of a list, and convert it
leniently: an integer may be given as decimal text, and a text as an integer. -/

namespace TorrentControl.Value

def asIntArgument (args : Value) : Except CommandError Int64 :=
  match args.argument with
  | .int n => .ok n
  | .text s =>
    match Number.Decimal.readWord? (Text.trimChars s.toList) with
    | some n => .ok n
    | none => .error (.input (.notANumber s))
  | .empty => .error (.missingArgument .integer)
  | v => .error (.value (v.mismatch .int))

/-- An absent argument is the empty text. -/
def asTextArgument (args : Value) : Except CommandError String :=
  match args.argument with
  | .text s => .ok s
  | .int n => .ok (Number.Decimal.writeWord n)
  | .empty => .ok ""
  | v => .error (.value (v.mismatch .text))

end TorrentControl.Value

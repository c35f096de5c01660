import TorrentControl.Json.Document
import TorrentControl.KeyMap
import TorrentControl.Text.Quoted

/-! # What can be wrong with a typed JSON text

A text is malformed if it is not JSON, and invalid if it is JSON so far but not of the shape that
was asked for. Decoders walk a document from left to right and answer the first problem they meet. -/

namespace TorrentControl.Json

open Number (Binary)

/-- What a decoder met where it expected something else. -/
inductive Found where
  | null
  | bool (b : Bool)
  | integer (n : Int)
  | floating (negative : Bool) (magnitude : Binary)
  | text (s : String)
  | sequence
  | map
  | unitVariant
deriving DecidableEq, Repr

def Found.description : Found → String
  | .null => "null"
  | .bool true => "boolean `true`"
  | .bool false => "boolean `false`"
  | .integer n => "integer `" ++ toString n ++ "`"
  | .floating negative magnitude =>
    "floating point `" ++ Number.Shortest.jsonText negative magnitude ++ "`"
  | .text s => "string " ++ Text.quoted s
  | .sequence => "sequence"
  | .map => "map"
  | .unitVariant => "unit variant"

inductive Invalid where
  | type (found : Found) (expected : String)
  | value (found : Found) (expected : String)
  | length (found : Nat) (expected : String)
  | unknownVariant (name : String) (expected : List String)
  | unknownField (name : String) (expected : List String)
  | missingField (name : String)
  | duplicateField (name : String)
  | integerTooGreat (n : Int)
  | floatingPoint (negative : Bool) (magnitude : Binary)
deriving DecidableEq, Repr

/-- The names in backquotes with a comma between them. -/
def oneOf (names : List String) : String :=
  "expected one of " ++ ", ".intercalate (names.map fun name => "`" ++ name ++ "`")

def Invalid.message : Invalid → String
  | .type found expected => "invalid type: " ++ found.description ++ ", expected " ++ expected
  | .value found expected => "invalid value: " ++ found.description ++ ", expected " ++ expected
  | .length found expected => "invalid length " ++ toString found ++ ", expected " ++ expected
  | .unknownVariant name expected => "unknown variant `" ++ name ++ "`, " ++ oneOf expected
  | .unknownField name expected => "unknown field `" ++ name ++ "`, " ++ oneOf expected
  | .missingField name => "missing field `" ++ name ++ "`"
  | .duplicateField name => "duplicate field `" ++ name ++ "`"
  | .integerTooGreat n => "integer " ++ toString n ++ " does not fit in 64 signed bits"
  | .floatingPoint negative magnitude =>
    "floating point value " ++ Number.Shortest.text negative magnitude ++ " is not supported"

inductive Problem where
  | malformed
  | invalid (what : Invalid)
deriving DecidableEq, Repr

abbrev Decoded (α : Type) := Except Problem α

namespace Document

/-- The problem of a value that is not what was expected. A text, a number or a value that cannot be
read at all is malformed before it is of the wrong type. -/
def unexpected (expected : String) : Document → Problem
  | .null => .invalid (.type .null expected)
  | .bool b => .invalid (.type (.bool b) expected)
  | .number n =>
    match n.value with
    | .integer i => .invalid (.type (.integer i) expected)
    | .floating negative magnitude => .invalid (.type (.floating negative magnitude) expected)
    | .outOfRange => .malformed
  | .text (some s) => .invalid (.type (.text s) expected)
  | .text none => .malformed
  | .array _ _ => .invalid (.type .sequence expected)
  | .object _ _ => .invalid (.type .map expected)
  | .broken => .malformed

/-- Nothing may follow the last item that was asked for. -/
def close : Ending → Decoded Unit
  | .closed => .ok ()
  | .stopped _ => .error .malformed

def asString : Document → Decoded String
  | .text (some s) => .ok s
  | d => .error (d.unexpected "a string")

def asBool : Document → Decoded Bool
  | .bool b => .ok b
  | d => .error (d.unexpected "a boolean")

/-- An integer in a range, both ends included; `name` says in messages what was expected. -/
def asInteger (name : String) (least greatest : Int) : Document → Decoded Int
  | .number n =>
    match n.value with
    | .integer i =>
      if least ≤ i ∧ i ≤ greatest then .ok i
      else .error (.invalid (.value (.integer i) name))
    | _ => .error ((Document.number n).unexpected name)
  | d => .error (d.unexpected name)

/-- A value or null. -/
def asOption {α : Type} (decode : Document → Decoded α) : Document → Decoded (Option α)
  | .null => .ok none
  | d => some <$> decode d

def asList {α : Type} (decode : Document → Decoded α) : Document → Decoded (List α)
  | .array items ending => do
    let decoded ← items.mapM decode
    close ending
    return decoded
  | d => .error (d.unexpected "a sequence")

end Document

/-- A whole text, decoded. -/
def Reading.decode {α : Type} (reading : Reading) (decode : Document → Decoded α) : Decoded α := do
  let decoded ← decode reading.document
  if reading.isWhole then return decoded else throw .malformed

end TorrentControl.Json

import TorrentControl.Json.Problem
import TorrentControl.Value

/-! # Values as JSON

Writing loses the difference between raw bytes and a list of integers. Reading makes integers of
booleans, takes integers of 64 signed bits only, and keeps the last of several members with the
same key. -/

namespace TorrentControl.Value

open Json (Document Decoded)

mutual
def toDocument : Value → Document
  | .empty => .null
  | .int n => .int n.toInt
  | .text s => .string s
  | .raw bytes => .list (bytes.map fun b => .int b.toNat)
  | .list items => .array (toDocuments items) .closed
  | .map entries => .object (toMembers entries) .closed

def toDocuments : List Value → List Document
  | [] => []
  | v :: rest => toDocument v :: toDocuments rest

def toMembers : List (String × Value) → List (Option String × Document)
  | [] => []
  | (key, v) :: rest => (some key, toDocument v) :: toMembers rest
end

def toJson (v : Value) : String :=
  v.toDocument.render

/-! ## Reading -/

def ofNumeral (n : Json.Numeral) : Decoded Value :=
  match n.value with
  | .integer i =>
    match Number.Word.ofInt? i with
    | some w => .ok (.int w)
    | none => .error (.invalid (.integerTooGreat i))
  | .floating negative magnitude => .error (.invalid (.floatingPoint negative magnitude))
  | .outOfRange => .error .malformed

mutual
def ofDocument : Document → Decoded Value
  | .null => .ok .empty
  | .bool b => .ok (ofBool b)
  | .number n => ofNumeral n
  | .text (some s) => .ok (.text s)
  | .text none => .error .malformed
  | .array items ending => do
    let values ← ofDocuments items
    Document.close ending
    return .list values
  | .object members ending => do
    let entries ← ofMembers members
    Document.close ending
    return .map (KeyMap.ofList entries)
  | .broken => .error .malformed

def ofDocuments : List Document → Decoded (List Value)
  | [] => .ok []
  | d :: rest => do
    let v ← ofDocument d
    let vs ← ofDocuments rest
    return v :: vs

def ofMembers : List (Option String × Document) → Decoded (List (String × Value))
  | [] => .ok []
  | (some key, d) :: rest => do
    let v ← ofDocument d
    let entries ← ofMembers rest
    return (key, v) :: entries
  | (none, _) :: _ => .error .malformed
end

def ofJson (text : String) : Decoded Value :=
  (Json.Reading.ofText Json.nestingLimit text).decode ofDocument

end TorrentControl.Value

import TorrentControl.Json.Problem

/-! # Records in JSON

A record is read from an object, whose members may come in any order but each at most once, or from
an array with the fields in their own order, of which the last ones may be left out. The fields are
put one after another into a record that starts with their defaults. -/

namespace TorrentControl.Json

/-- A field of a record: its name, and how a document is put into it. -/
structure Field (σ : Type) where
  name : String
  put : σ → Document → Decoded σ

def Field.of {σ α : Type} (name : String) (decode : Document → Decoded α) (set : σ → α → σ) :
    Field σ :=
  { name, put := fun record d => set record <$> decode d }

structure RecordShape (σ : Type) where
  name : String
  fields : List (Field σ)
  start : σ
  /-- Whether a member that is no field is an error, and not skipped over. -/
  refusesUnknown : Bool

namespace RecordShape

variable {σ : Type}

/-- Puts the members into the record. The names that were met come back with it. -/
def putMembers (shape : RecordShape σ) (record : σ) (met : List String) :
    List (Option String × Document) → Decoded (σ × List String)
  | [] => .ok (record, met)
  | (none, _) :: _ => .error .malformed
  | (some key, d) :: rest =>
    match shape.fields.find? fun field => field.name == key with
    | some field => do
      if met.contains key then throw (.invalid (.duplicateField key))
      putMembers shape (← field.put record d) (key :: met) rest
    | none => do
      if shape.refusesUnknown then
        throw (.invalid (.unknownField key (shape.fields.map Field.name)))
      if d.isComplete then putMembers shape record met rest else throw .malformed

/-- Puts the items into the fields in their order. No item may be left over. -/
def putItems (record : σ) (met : List String) :
    List (Field σ) → List Document → Decoded (σ × List String)
  | _, [] => .ok (record, met)
  | [], _ :: _ => .error .malformed
  | field :: fields, d :: rest => do
    putItems (← field.put record d) (field.name :: met) fields rest

/-- Reads a record and the names of the fields that the document gives. -/
def decode (shape : RecordShape σ) : Document → Decoded (σ × List String)
  | .object members ending => do
    let result ← shape.putMembers shape.start [] members
    Document.close ending
    return result
  | .array items ending => do
    let result ← putItems shape.start [] shape.fields items
    Document.close ending
    return result
  | d => .error (d.unexpected ("struct " ++ shape.name))

end RecordShape

namespace Document

/-- A map from texts to texts; the last of several members with one key counts. -/
def asTextMap : Document → Decoded (KeyMap String)
  | .object members ending => do
    let entries ← members.mapM fun
      | (some key, d) => do return (key, ← d.asString)
      | (none, _) => throw .malformed
    close ending
    return KeyMap.ofList entries
  | d => .error (d.unexpected "a map")

def asWord (d : Document) : Decoded Int64 :=
  Int64.ofInt <$> asInteger "i64" Number.Word.least Number.Word.greatest d

def asPort (d : Document) : Decoded UInt16 :=
  (fun n => UInt16.ofNat n.toNat) <$> asInteger "u16" 0 65535 d

def ofOption {α : Type} (write : α → Document) : Option α → Document
  | some a => write a
  | none => .null

end Document

end TorrentControl.Json

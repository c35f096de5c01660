import TorrentControl.Json.Document
import TorrentControl.KeyMap

/-! # Settings

A setting is what a layer of the configuration says about something, before it is clear whether it
can be used. Tables of two layers are merged key by key; anything else takes the place of what the
lower layer says. -/

namespace TorrentControl

inductive Setting where
  | null
  | flag (b : Bool)
  | int (n : Int)
  /-- A finite number with a fraction, or a time. Nothing takes one. -/
  | other
  | text (s : String)
  | list (items : List Setting)
  | table (entries : List (String × Setting))
deriving Inhabited

namespace Setting

def empty : Setting :=
  .table []

def find? (setting : Setting) (key : String) : Option Setting :=
  match setting with
  | .table entries => KeyMap.find? entries key
  | _ => none

/-! ## Merging -/

mutual
def merge : Setting → Setting → Setting
  | .table lower, .table upper => .table (mergeEntries lower upper)
  | _, upper => upper

def mergeEntries (lower : List (String × Setting)) : List (String × Setting) → List (String × Setting)
  | [] => lower
  | (key, setting) :: rest =>
    let merged := match KeyMap.find? lower key with
      | some old => merge old setting
      | none => setting
    mergeEntries (KeyMap.insert lower key merged) rest
end

/-- A table with one key, with tables inside for a path of keys. -/
def nest : List String → Setting → Setting
  | [], setting => setting
  | key :: path, setting => .table [(key, nest path setting)]

/-! ## Settings from JSON -/

mutual
def ofDocument : Json.Document → Setting
  | .null | .broken => .null
  | .bool b => .flag b
  | .number n =>
    match n.value with
    | .integer i => .int i
    | _ => .other
  | .text content => .text (content.getD "")
  | .array items _ => .list (ofDocuments items)
  | .object members _ => .table (KeyMap.ofList (ofMembers members))

def ofDocuments : List Json.Document → List Setting
  | [] => []
  | d :: rest => ofDocument d :: ofDocuments rest

def ofMembers : List (Option String × Json.Document) → List (String × Setting)
  | [] => []
  | (key, d) :: rest => (key.getD "", ofDocument d) :: ofMembers rest
end

end Setting

end TorrentControl

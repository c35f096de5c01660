import TorrentControl.Json.Record
import TorrentControl.Rpc.Failure
import TorrentControl.Session
import TorrentControl.Text.Blank
import TorrentControl.Value.Json

/-! # Requests

A request is one line of JSON: an object with a method, a target and parameters, of which only the
method is required. The target names downloads by their hashes. It is checked against the session
when the request is run, and not before. -/

namespace TorrentControl.Rpc

open Json (Document Decoded Invalid Found)

/-! ## Targets by hash -/

inductive TargetSpec where
  | generic
  | download (hash : String)
  | file (hash : String) (index : Nat)
  | fileCursor (hash : String) (position : Nat)
  | peer (hash : String) (index : Nat)
  | tracker (hash : String) (index : Nat)
  | downloadPair (first second : String)
deriving DecidableEq, Repr

namespace TargetSpec

def findDownload (session : Session) (hash : String) : Except Failure DownloadId :=
  match session.findByHex? hash with
  | some id => .ok id
  | none => .error (.unknownDownload hash)

/-- The target in a session. Positions stay as they are. -/
def resolve (session : Session) : TargetSpec → Except Failure Target
  | .generic => .ok .generic
  | .download hash => do
    return .download (← findDownload session hash)
  | .file hash index => do
    return .file ⟨← findDownload session hash, index⟩
  | .fileCursor hash position => do
    return .entity (.cursor ⟨← findDownload session hash, position⟩)
  | .peer hash index => do
    return .peer ⟨← findDownload session hash, index⟩
  | .tracker hash index => do
    return .tracker ⟨← findDownload session hash, index⟩
  | .downloadPair first second => do
    return .pair (← findDownload session first) (← findDownload session second)

/-! ## Reading targets

A target is written as the bare name of a variant without content, or as an object whose one member
has the name of the variant as its key. -/

/-- How the content of a variant is written. -/
inductive Content where
  | nothing
  | hash (make : String → TargetSpec)
  | place (title : String) (make : String → Nat → TargetSpec)
  | hashes (title : String) (make : String → String → TargetSpec)

def variants : List (String × Content) :=
  [("generic", .nothing),
    ("download", .hash .download),
    ("file", .place "File" .file),
    ("file_cursor", .place "FileCursor" .fileCursor),
    ("peer", .place "Peer" .peer),
    ("tracker", .place "Tracker" .tracker),
    ("download_pair", .hashes "DownloadPair" .downloadPair)]

def findVariant (name : String) : Decoded Content :=
  match variants.find? fun v => v.1 == name with
  | some v => .ok v.2
  | none => .error (.invalid (.unknownVariant name (variants.map Prod.fst)))

def greatestPosition : Nat := 18446744073709551615

def asPosition (d : Document) : Decoded Nat :=
  Int.toNat <$> Document.asInteger "usize" 0 greatestPosition d

/-- Reads an array of exactly two items. -/
def readTwo {α β : Type} (title : String) (first : Document → Decoded α)
    (second : Document → Decoded β) : Document → Decoded (α × β)
  | .array items ending => do
    let tooShort (n : Nat) : Json.Problem :=
      match ending with
      | .closed => .invalid (.length n ("tuple variant TargetSpec::" ++ title ++ " with 2 elements"))
      | .stopped _ => .malformed
    match items with
    | [] => throw (tooShort 0)
    | a :: rest =>
      let a ← first a
      match rest with
      | [] => throw (tooShort 1)
      | b :: rest =>
        let b ← second b
        Document.close ending
        if rest.isEmpty then return (a, b) else throw .malformed
  | d => .error (d.unexpected ("tuple variant TargetSpec::" ++ title))

/-- Reads the content of a variant from the member of an object. -/
def Content.read (d : Document) : Content → Decoded TargetSpec
  | .nothing =>
    match d with
    | .null => .ok .generic
    | d => .error (d.unexpected "unit")
  | .hash make => make <$> d.asString
  | .place title make => (fun pair => make pair.1 pair.2) <$> readTwo title Document.asString asPosition d
  | .hashes title make =>
    (fun pair => make pair.1 pair.2) <$> readTwo title Document.asString Document.asString d

/-- Reads a variant of which only the name is given. -/
def Content.ofName : Content → Decoded TargetSpec
  | .nothing => .ok .generic
  | .hash _ => .error (.invalid (.type .unitVariant "newtype variant"))
  | .place _ _ | .hashes _ _ => .error (.invalid (.type .unitVariant "tuple variant"))

/-- The problem of a token that stands where the name of a variant should. -/
def notAName : Option Json.Token → Json.Problem
  | some .null => Document.null.unexpected "variant identifier"
  | some (.bool b) => (Document.bool b).unexpected "variant identifier"
  | some (.number n) => (Document.number n).unexpected "variant identifier"
  | some .openBracket => (Document.array [] .closed).unexpected "variant identifier"
  | some .openBrace => (Document.object [] .closed).unexpected "variant identifier"
  | _ => .malformed

def ofDocument : Document → Decoded TargetSpec
  | .text (some name) => do
    (← findVariant name).ofName
  | .object ((some name, d) :: rest) ending => do
    let target ← (← findVariant name).read d
    Document.close ending
    if rest.isEmpty then return target else throw .malformed
  | .object [] (.stopped next) => .error (notAName next)
  | _ => .error .malformed

end TargetSpec

/-! ## Requests -/

structure Request where
  method : String
  target : TargetSpec
  params : Value
deriving DecidableEq

namespace Request

def shape : Json.RecordShape Request :=
  { name := "RpcRequest"
    fields :=
      [.of "method" Document.asString fun r method => { r with method },
        .of "target" TargetSpec.ofDocument fun r target => { r with target },
        .of "params" Value.ofDocument fun r params => { r with params }]
    start := ⟨"", .generic, .empty⟩
    refusesUnknown := true }

/-- The problem of a document without a method. -/
def withoutMethod : Document → Json.Problem
  | .array _ _ => .invalid (.length 0 "struct RpcRequest with 3 elements")
  | _ => .invalid (.missingField "method")

def ofDocument (d : Document) : Decoded Request := do
  let (request, met) ← shape.decode d
  if met.contains "method" then return request else throw (withoutMethod d)

/-- Bytes that do not count at the end of a line. -/
def isTrailing (b : UInt8) : Bool :=
  b == 0x20 || b == 0x09 || b == 0x0A || b == 0x0C || b == 0x0D

/-- A line without the bytes that do not count at its end. -/
def trimLine (line : List UInt8) : List UInt8 :=
  (line.reverse.dropWhile isTrailing).reverse

def ofLine (line : List UInt8) : Except Failure Request := do
  let kept := trimLine line
  if kept.isEmpty then throw (.malformed .empty)
  match (Json.Reading.ofBytes Json.nestingLimit kept).decode ofDocument with
  | .error .malformed => throw (.malformed .notJson)
  | .error (.invalid what) => throw (.invalid (.shape what))
  | .ok request =>
    if Text.isBlankText request.method then throw (.invalid .blankMethod)
    return request

end Request

end TorrentControl.Rpc

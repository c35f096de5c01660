import TorrentControl.Config.LogFormat
import TorrentControl.Endpoint

/-! # Command-line flags

Every flag takes a value: after an equals sign, as the next argument or, for a flag of one letter,
right behind it. No flag may be given twice, and nothing but flags is taken. -/

namespace TorrentControl

structure CommandLine where
  rpcSocket : Option Endpoint
  logFilter : Option String
  logFormat : Option LogFormat
  sessionManifest : Option String
  configPath : Option String
deriving DecidableEq, Repr

namespace CommandLine

inductive Flag where
  | rpcSocket
  | logFilter
  | logFormat
  | sessionManifest
  | configPath
deriving DecidableEq, Repr

namespace Flag

def all : List Flag :=
  [.rpcSocket, .logFilter, .logFormat, .sessionManifest, .configPath]

def long : Flag → String
  | .rpcSocket => "rpc-socket"
  | .logFilter => "log-filter"
  | .logFormat => "log-format"
  | .sessionManifest => "session-manifest"
  | .configPath => "config-path"

def short? : Flag → Option Char
  | .rpcSocket => some 'r'
  | .logFilter => some 'l'
  | .logFormat => some 'L'
  | .sessionManifest => some 's'
  | .configPath => none

end Flag

/-- The flag that an argument names, and the value that the argument holds. -/
def ofArgument? (argument : List Char) : Option (Flag × Option (List Char)) :=
  match argument with
  | '-' :: '-' :: rest =>
    let (name, value) := Text.splitFirst '=' rest
    (Flag.all.find? fun flag => flag.long == String.ofList name).map fun flag => (flag, value)
  | '-' :: letter :: rest =>
    (Flag.all.find? fun flag => flag.short? == some letter).map fun flag =>
      match rest with
      | [] => (flag, none)
      | '=' :: value => (flag, some value)
      | value => (flag, some value)
  | _ => none

/-- An argument that looks like a flag is no value, but a lone minus sign is. -/
def isValue (argument : String) : Bool :=
  argument == "-" || argument.toList.head? != some '-'

/-- The flags with their values in the order in which they stand. -/
def flags? : List String → Option (List (Flag × String))
  | [] => some []
  | ["--"] => some []
  | argument :: rest =>
    match ofArgument? argument.toList, rest with
    | some (flag, some value), rest => (flags? rest).map ((flag, String.ofList value) :: ·)
    | some (flag, none), value :: rest =>
      if isValue value then (flags? rest).map ((flag, value) :: ·) else none
    | _, _ => none

def valueOf? (flags : List (Flag × String)) (flag : Flag) : Option String :=
  (flags.find? fun entry => entry.1 == flag).map Prod.snd

/-- Reads a value where there is one, and fails where it cannot be read. -/
def checked {α : Type} (read : String → Option α) : Option String → Option (Option α)
  | none => some none
  | some text => (read text).map some

def parse? (arguments : List String) : Option CommandLine := do
  let flags ← flags? arguments
  if !(flags.map Prod.fst).Nodup then none
  else
    return {
      rpcSocket := ← checked (fun s => (Endpoint.parse s).toOption) (valueOf? flags .rpcSocket)
      logFilter := valueOf? flags .logFilter
      logFormat := ← checked LogFormat.ofNameAnyCase? (valueOf? flags .logFormat)
      sessionManifest := valueOf? flags .sessionManifest
      configPath := valueOf? flags .configPath }

/-- What the flags say. -/
def settings (line : CommandLine) : Setting :=
  let given (key : String) (text : Option String) : List (String × Setting) :=
    (text.map fun s => (key, .text s)).toList
  .table (KeyMap.ofList (given "rpc_socket" (line.rpcSocket.map Endpoint.text) ++
    given "log_filter" line.logFilter ++ given "log_format" (line.logFormat.map LogFormat.name) ++
    given "session_manifest" line.sessionManifest))

end CommandLine

end TorrentControl

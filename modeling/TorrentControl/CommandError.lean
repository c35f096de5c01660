import TorrentControl.Target
import TorrentControl.Value

/-! # What can go wrong in a command

Each error states its cause; the wording is in one place. Beside the causes of the commands of this
library there is room for a message of a host program that registers commands of its own. -/

namespace TorrentControl

/-! ## Causes -/

/-- Why a command text or a script cannot be read. Positions count bytes from the start. -/
inductive ParseFault where
  | missingKey (text : String)
  | invalidKey (key : String)
  | unexpected (c : Char) (position : Nat)
  | unterminatedList
  | unterminatedString
  | unbalancedScript
  | unterminatedStringInScript
  | unterminatedListInScript
  | other (message : String)
deriving DecidableEq, Repr

def ParseFault.message : ParseFault → String
  | .missingKey text => "missing command key in \"" ++ text ++ "\""
  | .invalidKey key => "invalid command key \"" ++ key ++ "\""
  | .unexpected c position =>
    "unexpected '" ++ String.singleton c ++ "' at byte " ++ toString position
  | .unterminatedList => "unterminated list"
  | .unterminatedString => "unterminated string"
  | .unbalancedScript => "unbalanced '\x7d' in script"
  | .unterminatedStringInScript => "unterminated string in script"
  | .unterminatedListInScript => "unterminated list in script"
  | .other message => message

/-- What an argument list lacks. -/
inductive MissingArgument where
  | integer
  | customKey
  | customValue
  | comparisonKey
  | methodKey
  | methodDefinition
  | methodAlias
  | other (message : String)
deriving DecidableEq, Repr

def MissingArgument.message : MissingArgument → String
  | .integer => "expected an integer"
  | .customKey => "missing key argument"
  | .customValue => "missing value argument"
  | .comparisonKey => "expected a command to compare by"
  | .methodKey => "expected a method key"
  | .methodDefinition => "expected key, kind and script"
  | .methodAlias => "expected alias and source keys"
  | .other message => message

/-- Why a command refuses an argument of the right type, or refuses to act on its download. -/
inductive InputFault where
  | notANumber (text : String)
  | negative (n : Int64)
  | priorityOutOfRange
  | filePriorityOutOfRange
  | noCustomField
  | unknownConnection
  | closeWhileActive
  | checkWhileActive
  | privateDownload
  | unreadableHost
  | invalidPort
  | unknownMethodKind (kind : String)
  | unknownMethodModifier (modifier : String)
  | scriptsTooDeep (limit : Nat)
  | other (message : String)
deriving DecidableEq, Repr

def InputFault.message : InputFault → String
  | .notANumber text => "\"" ++ text ++ "\" is not a number"
  | .negative n => Number.Decimal.writeWord n ++ " is negative"
  | .priorityOutOfRange => "priority out of range"
  | .filePriorityOutOfRange => "invalid file priority"
  | .noCustomField => "no such custom value"
  | .unknownConnection => "unknown peer connection type selected"
  | .closeWhileActive => "cannot close an active download"
  | .checkWhileActive => "cannot check the hash of an active download"
  | .privateDownload => "download is private"
  | .unreadableHost => "could not parse host"
  | .invalidPort => "invalid port number"
  | .unknownMethodKind kind => "unsupported method kind \"" ++ kind ++ "\""
  | .unknownMethodModifier modifier => "unknown method modifier \"" ++ modifier ++ "\""
  | .scriptsTooDeep limit => "scripts nested deeper than " ++ toString limit ++ " levels"
  | .other message => message

/-- Why a key cannot be registered. -/
inductive RegistryError where
  | duplicateKey (key : String)
  | unknownSource (added source : String)
deriving DecidableEq, Repr

def RegistryError.message : RegistryError → String
  | .duplicateKey key => "tried to insert an already existing key \"" ++ key ++ "\""
  | .unknownSource added source =>
    "cannot alias \"" ++ added ++ "\": source \"" ++ source ++ "\" does not exist"

inductive InternalFault where
  | registry (e : RegistryError)
  | other (message : String)
deriving DecidableEq, Repr

def InternalFault.message : InternalFault → String
  | .registry e => e.message
  | .other message => message

/-! ## Errors -/

inductive CommandError where
  | unknownCommand (key : String)
  | targetMismatch (key : String) (expected actual : TargetKind)
  | tooFewArguments
  | missingArgument (what : MissingArgument)
  | value (e : ValueError)
  | invalidHandle (handle : String)
  | input (fault : InputFault)
  | parse (fault : ParseFault)
  | internal (fault : InternalFault)
deriving DecidableEq, Repr

namespace CommandError

/-- A name of the category that does not change with the wording. -/
def code : CommandError → String
  | .unknownCommand _ => "unknown_command"
  | .targetMismatch _ _ _ => "target_type_mismatch"
  | .tooFewArguments => "too_few_arguments"
  | .missingArgument _ => "missing_argument"
  | .value _ => "value_type"
  | .invalidHandle _ => "invalid_handle"
  | .input _ => "input"
  | .parse _ => "parse"
  | .internal _ => "internal"

def message : CommandError → String
  | .unknownCommand key => "command \"" ++ key ++ "\" does not exist"
  | .targetMismatch key expected actual =>
    "command type mismatch for \"" ++ key ++ "\": expected " ++ expected.name ++
      " target, got " ++ actual.name
  | .tooFewArguments => "too few arguments"
  | .missingArgument what => "missing argument: " ++ what.message
  | .value e => e.message
  | .invalidHandle handle => "invalid handle: " ++ handle
  | .input fault => fault.message
  | .parse fault => "parse error: " ++ fault.message
  | .internal fault => "internal error: " ++ fault.message

/-- Errors that a caller must not swallow. -/
def isInternal : CommandError → Bool
  | .internal _ => true
  | _ => false

/-- The error of an entity that is not there. -/
def stale (e : Entity) : CommandError :=
  .invalidHandle e.name

def ofValue {α : Type} : Except ValueError α → Except CommandError α :=
  Except.mapError .value

end CommandError

end TorrentControl

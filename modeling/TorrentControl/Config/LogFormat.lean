/-! # Log formats -/

namespace TorrentControl

inductive LogFormat where
  | json
  | compact
deriving DecidableEq, Repr

namespace LogFormat

def name : LogFormat → String
  | .json => "json"
  | .compact => "compact"

def all : List LogFormat :=
  [.json, .compact]

def ofName? (name : String) : Option LogFormat :=
  all.find? fun f => f.name == name

/-- Takes ASCII letters of either case. -/
def ofNameAnyCase? (name : String) : Option LogFormat :=
  ofName? name.toLower

end LogFormat

end TorrentControl

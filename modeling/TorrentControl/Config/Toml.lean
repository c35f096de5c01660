import TorrentControl.Config.Toml.Scalar

/-! # Reading TOML

A text is a list of lines, each with a header, with a key and a value, or with nothing. A header says
in which table the keys after it go. A table is defined once: by a header of its own, by dotted keys
or as a value in braces, though a header may come after the headers of tables inside it. -/

namespace TorrentControl.Toml

/-- What lies under a key while a text is being read. -/
inductive Node where
  | value (setting : Setting)
  /-- An implied table has had no header of its own, a dotted one came about by a dotted key. -/
  | table (isImplied isDotted : Bool) (entries : List (String × Node))
  /-- Tables under one repeated header, the newest first. -/
  | tables (newest : List (String × Node)) (older : List (List (String × Node)))

abbrev Entries := List (String × Node)

/-! ## Defining -/

/-- Puts a value under dotted keys. The tables in between must have come about by dotted keys, and
the last key must be new. -/
def assign (setting : Setting) : List String → Entries → Option Entries
  | [], _ => none
  | [key], entries =>
    if KeyMap.contains entries key then none
    else some (KeyMap.insert entries key (.value setting))
  | key :: path, entries =>
    let isLast := path.length = 1
    let inside (entries' : Option Entries) (isImplied isDotted : Bool) : Option Entries :=
      entries'.map fun inner => KeyMap.insert entries key (.table isImplied isDotted inner)
    match KeyMap.find? entries key with
    | none => inside (assign setting path []) true true
    | some (.value _) => none
    | some (.tables newest older) =>
      if isLast then none
      else (assign setting path newest).map fun inner =>
        KeyMap.insert entries key (.tables inner older)
    | some (.table isImplied isDotted inner) =>
      if isImplied ∧ (isDotted ∨ ¬ isLast) then inside (assign setting path inner) isImplied isDotted
      else none

/-- Changes the entries of the table that a path leads to; tables that are missing are implied. -/
def within (change : Entries → Option Entries) : List String → Entries → Option Entries
  | [], entries => change entries
  | key :: path, entries =>
    match KeyMap.find? entries key with
    | none => (within change path []).map fun inner =>
        KeyMap.insert entries key (.table true false inner)
    | some (.value _) => none
    | some (.table isImplied isDotted inner) => (within change path inner).map fun inner =>
        KeyMap.insert entries key (.table isImplied isDotted inner)
    | some (.tables newest older) => (within change path newest).map fun inner =>
        KeyMap.insert entries key (.tables inner older)

/-- Defines the table of a header. -/
def define (key : String) (entries : Entries) : Option Entries :=
  match KeyMap.find? entries key with
  | none => some (KeyMap.insert entries key (.table false false []))
  | some (.table true false inner) => some (KeyMap.insert entries key (.table false false inner))
  | some _ => none

/-- Starts the next table of a repeated header. -/
def extend (key : String) (entries : Entries) : Option Entries :=
  match KeyMap.find? entries key with
  | none => some (KeyMap.insert entries key (.tables [] []))
  | some (.tables newest older) => some (KeyMap.insert entries key (.tables [] (newest :: older)))
  | some _ => none

mutual
def Node.setting : Node → Setting
  | .value setting => setting
  | .table _ _ entries => .table (settings entries)
  | .tables newest older => .list ((listed older).reverse ++ [.table (settings newest)])

def settings : List (String × Node) → List (String × Setting)
  | [] => []
  | (key, node) :: rest => (key, node.setting) :: settings rest

def listed : List (List (String × Node)) → List Setting
  | [] => []
  | entries :: rest => .table (settings entries) :: listed rest
end

/-! ## Keys -/

def skipSpaces (cs : List Char) : List Char :=
  cs.dropWhile isSpace

def isKeyChar (c : Char) : Bool :=
  c.isAlphanum || c == '_' || c == '-'

def readKey : List Char → Option (String × List Char)
  | '"' :: rest => readLine '"' rest
  | '\'' :: rest => readLine '\'' rest
  | cs =>
    match cs.span isKeyChar with
    | ([], _) => none
    | (key, rest) => some (String.ofList key, rest)

/-- Reads keys with points between them. Every key takes a character, so that the length of the text
is fuel enough. -/
def readPath : Nat → List Char → Option (List String × List Char)
  | 0, _ => none
  | fuel + 1, cs => do
    let (key, rest) ← readKey (skipSpaces cs)
    match skipSpaces rest with
    | '.' :: rest =>
      let (path, rest) ← readPath fuel rest
      return (key :: path, rest)
    | rest => return ([key], rest)

/-- Tables and lists lie in each other, and dotted keys follow each other, fewer than this many deep. -/
def depthLimit : Nat := 80

/-- Reads dotted keys that lead not too deep. -/
def readKeys (cs : List Char) : Option (List String × List Char) :=
  (readPath cs.length cs).filter fun keys => keys.1.length < depthLimit

/-! ## Values -/

/-- Leaves out blank space, line breaks and comments. -/
def skipLayout : Bool → List Char → List Char
  | _, [] => []
  | inComment, c :: rest =>
    if c = '\n' then skipLayout false rest
    else if inComment then (if isPlain c then skipLayout true rest else c :: rest)
    else if c = '#' then skipLayout true rest
    else if isSpace c then skipLayout false rest
    else c :: rest

/-- Reads dotted keys and the sign after them. -/
def readAssigned (cs : List Char) : Option (List String × List Char) := do
  let (path, rest) ← readKeys cs
  match rest with
  | '=' :: rest => return (path, skipSpaces rest)
  | _ => none

mutual
/-- Reads a value that has `depth` lists and tables around it. -/
def readValue : Nat → Nat → List Char → Option (Setting × List Char)
  | 0, _, _ => none
  | fuel + 1, depth, cs =>
    let isTooDeep := depthLimit ≤ depth + 1
    match cs with
    | '[' :: rest =>
      if isTooDeep then none
      else (readItems fuel (depth + 1) rest).map fun (items, rest) => (.list items, rest)
    | '\x7b' :: rest =>
      if isTooDeep then none
      else
        match skipSpaces rest with
        | '\x7d' :: rest => some (.empty, rest)
        | rest => (readMembers fuel (depth + 1) [] rest).map fun (entries, rest) =>
            (.table (settings entries), rest)
    | cs => readScalar cs

def readItems : Nat → Nat → List Char → Option (List Setting × List Char)
  | 0, _, _ => none
  | fuel + 1, depth, cs =>
    match skipLayout false cs with
    | ']' :: rest => some ([], rest)
    | cs => do
      let (item, rest) ← readValue fuel depth cs
      match skipLayout false rest with
      | ']' :: rest => return ([item], rest)
      | ',' :: rest =>
        let (items, rest) ← readItems fuel depth rest
        return (item :: items, rest)
      | _ => none

def readMembers : Nat → Nat → Entries → List Char → Option (Entries × List Char)
  | 0, _, _, _ => none
  | fuel + 1, depth, entries, cs => do
    let (path, rest) ← readAssigned cs
    let (setting, rest) ← readValue fuel depth rest
    let entries ← assign setting path entries
    match skipSpaces rest with
    | '\x7d' :: rest => return (entries, rest)
    | ',' :: rest => readMembers fuel depth entries rest
    | _ => none
end

/-! ## Lines -/

/-- The next line; nothing but a comment may stand in between. -/
def nextLine (cs : List Char) : Option (List Char) :=
  let rest := match skipSpaces cs with
    | '#' :: rest => rest.dropWhile isPlain
    | rest => rest
  match rest with
  | [] => some []
  | '\n' :: rest => some rest
  | _ => none

/-- Reads the rest of a header: its keys, and the brackets that close it. -/
def readHeader (closing cs : List Char) : Option (List String × List Char) := do
  let (path, rest) ← readKeys cs
  if closing.isPrefixOf rest then return (path, ← nextLine (rest.drop closing.length)) else none

/-- Reads line after line. `here` is the path of the table that keys go into. Every line with
something on it takes a character, so that the length of the text is fuel enough. -/
def readLinesInto : Nat → List String → Entries → List Char → Option Entries
  | 0, _, _, _ => none
  | fuel + 1, here, root, cs =>
    match skipLayout false cs with
    | [] => some root
    | '[' :: '[' :: rest => do
      let (path, rest) ← readHeader [']', ']'] rest
      let root ← within (extend (path.getLastD "")) path.dropLast root
      readLinesInto fuel path root rest
    | '[' :: rest => do
      let (path, rest) ← readHeader [']'] rest
      let root ← within (define (path.getLastD "")) path.dropLast root
      readLinesInto fuel path root rest
    | cs => do
      let (path, rest) ← readAssigned cs
      let (setting, rest) ← readValue (2 * rest.length + 1) 0 rest
      let root ← within (assign setting path) here root
      readLinesInto fuel here root (← nextLine rest)

/-- Leaves out the carriage return of each line break. -/
def joinBreaks : List Char → List Char
  | '\r' :: '\n' :: rest => '\n' :: joinBreaks rest
  | c :: rest => c :: joinBreaks rest
  | [] => []

/-- Leaves out a byte order mark. -/
def dropMark : List Char → List Char
  | '\uFEFF' :: rest => rest
  | cs => cs

/-- The table that a text denotes, if it is well formed. -/
def read? (text : String) : Option Setting :=
  let cs := joinBreaks (dropMark text.toList)
  (readLinesInto (cs.length + 1) [] [] cs).map fun root => .table (settings root)

end TorrentControl.Toml

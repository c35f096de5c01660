import TorrentControl.KeyMap
import TorrentControl.Number.Word

/-! # Values

Every command takes one value and answers one. A value is nothing, a signed 64-bit integer, a text,
raw bytes, a list, or a map with text keys. The accessors are strict: a value of another kind is an
error that names both kinds. -/

namespace TorrentControl

/-- A dynamically typed value. The entries of a map are in increasing order of their keys, each key
once; `Value.Ordered` says so, and every operation here keeps it. -/
inductive Value where
  | empty
  | int (n : Int64)
  | text (s : String)
  | raw (bytes : List UInt8)
  | list (items : List Value)
  | map (entries : List (String × Value))
deriving Inhabited

/-! ## Kinds and errors -/

inductive ValueKind where
  | empty
  | int
  | text
  | raw
  | list
  | map
deriving DecidableEq, Repr

def ValueKind.name : ValueKind → String
  | .empty => "empty"
  | .int => "int"
  | .text => "string"
  | .raw => "raw"
  | .list => "list"
  | .map => "map"

/-- What an operation asked a value to be: of one kind, or of any kind that has an order. -/
inductive ValueDemand where
  | kind (k : ValueKind)
  | ordered
deriving DecidableEq, Repr

def ValueDemand.name : ValueDemand → String
  | .kind k => k.name
  | .ordered => "int, string or raw"

inductive ValueError where
  | typeMismatch (expected : ValueDemand) (found : ValueKind)
  | missingKey (key : String)
deriving DecidableEq, Repr

def ValueError.message : ValueError → String
  | .typeMismatch expected found =>
    "type mismatch: expected " ++ expected.name ++ ", found " ++ found.name
  | .missingKey key => "missing key '" ++ key ++ "'"

namespace Value

/-! ## Equality -/

mutual
/-- Structural equality. -/
def same : Value → Value → Bool
  | .empty, .empty => true
  | .int a, .int b => a == b
  | .text a, .text b => a == b
  | .raw a, .raw b => a == b
  | .list a, .list b => sameItems a b
  | .map a, .map b => sameEntries a b
  | _, _ => false

def sameItems : List Value → List Value → Bool
  | [], [] => true
  | v :: vs, w :: ws => same v w && sameItems vs ws
  | _, _ => false

def sameEntries : List (String × Value) → List (String × Value) → Bool
  | [], [] => true
  | (j, v) :: vs, (k, w) :: ws => j == k && same v w && sameEntries vs ws
  | _, _ => false
end

mutual
theorem same_iff : ∀ v w : Value, same v w = true ↔ v = w
  | .empty, w => by cases w <;> simp [same]
  | .int a, w => by cases w <;> simp [same]
  | .text a, w => by cases w <;> simp [same]
  | .raw a, w => by cases w <;> simp [same]
  | .list a, w => by
    cases w <;> simp [same]
    exact sameItems_iff a _
  | .map a, w => by
    cases w <;> simp [same]
    exact sameEntries_iff a _

theorem sameItems_iff : ∀ vs ws : List Value, sameItems vs ws = true ↔ vs = ws
  | [], ws => by cases ws <;> simp [sameItems]
  | v :: vs, ws => by
    cases ws with
    | nil => simp [sameItems]
    | cons w ws => simp [sameItems, same_iff v w, sameItems_iff vs ws]

theorem sameEntries_iff : ∀ vs ws : List (String × Value), sameEntries vs ws = true ↔ vs = ws
  | [], ws => by cases ws <;> simp [sameEntries]
  | (j, v) :: vs, ws => by
    cases ws with
    | nil => simp [sameEntries]
    | cons entry ws =>
      obtain ⟨k, w⟩ := entry
      simp [sameEntries, same_iff v w, sameEntries_iff vs ws]
end

instance : DecidableEq Value := fun v w => decidable_of_iff _ (same_iff v w)

/-! ## Well-formed maps -/

mutual
/-- Every map inside the value is ordered. -/
def Ordered : Value → Prop
  | .list items => OrderedItems items
  | .map entries => KeyMap.Ordered entries ∧ OrderedEntries entries
  | _ => True

def OrderedItems : List Value → Prop
  | [] => True
  | v :: vs => Ordered v ∧ OrderedItems vs

def OrderedEntries : List (String × Value) → Prop
  | [] => True
  | (_, v) :: vs => Ordered v ∧ OrderedEntries vs
end

/-! ## Reading -/

def kind : Value → ValueKind
  | .empty => .empty
  | .int _ => .int
  | .text _ => .text
  | .raw _ => .raw
  | .list _ => .list
  | .map _ => .map

def mismatch (v : Value) (expected : ValueKind) : ValueError :=
  .typeMismatch (.kind expected) v.kind

def asInt : Value → Except ValueError Int64
  | .int n => .ok n
  | v => .error (v.mismatch .int)

def asText : Value → Except ValueError String
  | .text s => .ok s
  | v => .error (v.mismatch .text)

def asRaw : Value → Except ValueError (List UInt8)
  | .raw bytes => .ok bytes
  | v => .error (v.mismatch .raw)

def asList : Value → Except ValueError (List Value)
  | .list items => .ok items
  | v => .error (v.mismatch .list)

def asMap : Value → Except ValueError (List (String × Value))
  | .map entries => .ok entries
  | v => .error (v.mismatch .map)

def getKey (v : Value) (key : String) : Except ValueError Value := do
  match KeyMap.find? (← v.asMap) key with
  | some found => return found
  | none => throw (.missingKey key)

/-- False for everything but a map with that key. -/
def hasKey (v : Value) (key : String) : Bool :=
  match v with
  | .map entries => KeyMap.contains entries key
  | _ => false

def contains (v : Value) (needle : Value) : Except ValueError Bool :=
  return (← v.asList).any (· == needle)

/-- What a command takes from its argument when it wants one value: the first item of a list that
has one, and otherwise the whole. -/
def argument : Value → Value
  | .list (first :: _) => first
  | v => v

/-! ## Writing

Each operation answers the changed value. -/

def insertKey (v : Value) (key : String) (value : Value) : Except ValueError Value :=
  return .map (KeyMap.insert (← v.asMap) key value)

/-- Puts a value under a key that must be there already. -/
def replaceKey (v : Value) (key : String) (value : Value) : Except ValueError Value := do
  let _ ← v.getKey key
  v.insertKey key value

/-- Puts a value under a key unless the key is there already. -/
def insertKeyIfAbsent (v : Value) (key : String) (value : Value) : Except ValueError Value := do
  if KeyMap.contains (← v.asMap) key then return v else v.insertKey key value

/-- Answers the value that was under the key as well. -/
def eraseKey (v : Value) (key : String) : Except ValueError (Option Value × Value) := do
  let entries ← v.asMap
  return (KeyMap.find? entries key, .map (KeyMap.erase entries key))

def push (v : Value) (item : Value) : Except ValueError Value :=
  return .list ((← v.asList) ++ [item])

/-- Appends an item unless an equal one is there, and says whether it did. -/
def pushUnique (v : Value) (item : Value) : Except ValueError (Bool × Value) := do
  if ← v.contains item then return (false, v) else return (true, ← v.push item)

/-- Drops every item equal to the given one, keeps the order of the others, and says how many it
dropped. -/
def remove (v : Value) (needle : Value) : Except ValueError (Nat × Value) := do
  let items ← v.asList
  return (items.countP (· == needle), .list (items.filter (· != needle)))

/-! ## Order -/

def compareBytes : List UInt8 → List UInt8 → Ordering
  | [], [] => .eq
  | [], _ :: _ => .lt
  | _ :: _, [] => .gt
  | a :: as, b :: bs => (compare a.toNat b.toNat).then (compareBytes as bs)

/-- Two values of the same scalar kind are ordered; nothing else is. A list or a map on the left is
refused for not being a scalar, and otherwise the right one for not being of the left one's kind. -/
def order : Value → Value → Except ValueError Ordering
  | .empty, .empty => .ok .eq
  | .int a, .int b => .ok (compare a.toInt b.toInt)
  | .text a, .text b => .ok (compareOfLessAndEq a b)
  | .raw a, .raw b => .ok (compareBytes a b)
  | .list items, _ => .error (.typeMismatch .ordered (Value.list items).kind)
  | .map entries, _ => .error (.typeMismatch .ordered (Value.map entries).kind)
  | v, w => .error (w.mismatch v.kind)

/-! ## Conversions -/

def ofCount (n : Nat) : Value :=
  .int (Number.Word.ofCount n)

def ofBool (b : Bool) : Value :=
  .int (Number.Word.ofBool b)

end Value

end TorrentControl

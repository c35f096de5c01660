import TorrentControl.Proofs.Json.Document
import TorrentControl.Proofs.KeyMap
import TorrentControl.Value.Json

/-! # Values are read back from their JSON

The text of a value is read as the value, with the bytes of raw payloads as integers, unless the
text nests deeper than the reader goes. -/

namespace TorrentControl.Value

open Json (Document)

/-! ## What writing forgets -/

mutual
/-- The value with every raw payload as the list of its bytes. -/
def rawAsList : Value → Value
  | .raw bytes => .list (bytes.map fun b => .int (Int64.ofInt b.toNat))
  | .list items => .list (itemsRawAsList items)
  | .map entries => .map (entriesRawAsList entries)
  | v => v

def itemsRawAsList : List Value → List Value
  | [] => []
  | v :: rest => rawAsList v :: itemsRawAsList rest

def entriesRawAsList : List (String × Value) → List (String × Value)
  | [] => []
  | (key, v) :: rest => (key, rawAsList v) :: entriesRawAsList rest
end

mutual
/-- No raw payload is anywhere in the value. -/
def RawFree : Value → Prop
  | .raw _ => False
  | .list items => RawFreeItems items
  | .map entries => RawFreeEntries entries
  | _ => True

def RawFreeItems : List Value → Prop
  | [] => True
  | v :: rest => RawFree v ∧ RawFreeItems rest

def RawFreeEntries : List (String × Value) → Prop
  | [] => True
  | (_, v) :: rest => RawFree v ∧ RawFreeEntries rest
end

mutual
theorem RawFree.rawAsList_eq : ∀ {v : Value}, RawFree v → rawAsList v = v
  | .empty, _ => rfl
  | .int _, _ => rfl
  | .text _, _ => rfl
  | .list _, h => congrArg Value.list (RawFreeItems.rawAsList_eq h)
  | .map _, h => congrArg Value.map (RawFreeEntries.rawAsList_eq h)

theorem RawFreeItems.rawAsList_eq : ∀ {items : List Value}, RawFreeItems items →
    itemsRawAsList items = items
  | [], _ => rfl
  | v :: rest, h => by
    rw [itemsRawAsList, RawFree.rawAsList_eq h.1, RawFreeItems.rawAsList_eq h.2]

theorem RawFreeEntries.rawAsList_eq : ∀ {entries : List (String × Value)},
    RawFreeEntries entries → entriesRawAsList entries = entries
  | [], _ => rfl
  | (key, v) :: rest, h => by
    rw [entriesRawAsList, RawFree.rawAsList_eq h.1, RawFreeEntries.rawAsList_eq h.2]
end

theorem keys_entriesRawAsList : ∀ entries : List (String × Value),
    (entriesRawAsList entries).map Prod.fst = entries.map Prod.fst
  | [] => rfl
  | (key, v) :: rest => by
    rw [entriesRawAsList, List.map_cons, List.map_cons, keys_entriesRawAsList rest]

/-! ## Values have documents of their own -/

theorem writableItems_map {α : Type} (make : α → Document) (h : ∀ a, (make a).Writable)
    (as : List α) : Document.WritableItems (as.map make) := by
  induction as with
  | nil => trivial
  | cons a as ih => exact ⟨h a, ih⟩

mutual
theorem writable_toDocument : ∀ v : Value, (toDocument v).Writable
  | .empty => trivial
  | .int n => Json.Numeral.wellFormed_ofInt n.toInt
  | .text _ => rfl
  | .raw bytes =>
    ⟨writableItems_map (fun b : UInt8 => .int b.toNat)
      (fun b => Json.Numeral.wellFormed_ofInt b.toNat) bytes, rfl⟩
  | .list items => ⟨writable_toDocuments items, rfl⟩
  | .map entries => ⟨writable_toMembers entries, rfl⟩

theorem writable_toDocuments : ∀ items : List Value, Document.WritableItems (toDocuments items)
  | [] => trivial
  | v :: rest => ⟨writable_toDocument v, writable_toDocuments rest⟩

theorem writable_toMembers : ∀ entries : List (String × Value),
    Document.WritableMembers (toMembers entries)
  | [] => trivial
  | (_, v) :: rest => ⟨rfl, writable_toDocument v, writable_toMembers rest⟩
end

/-! ## Decoding -/

theorem ofDocument_int {n : Int} (hlow : Number.Word.least ≤ n) (hhigh : n ≤ Number.Word.greatest) :
    ofDocument (.int n) = .ok (.int (Int64.ofInt n)) := by
  have hvalue : (Json.Numeral.ofInt n).value = .integer n :=
    Json.Numeral.value_ofInt hlow (Int.le_trans hhigh (by decide))
  have hword : Number.Word.ofInt? n = some (Int64.ofInt n) := if_pos ⟨hlow, hhigh⟩
  rw [Document.int, ofDocument, ofNumeral, hvalue]
  simp only [hword]

theorem ofDocuments_bytes (bytes : List UInt8) :
    ofDocuments (bytes.map fun b => .int b.toNat) =
      .ok (bytes.map fun b => .int (Int64.ofInt b.toNat)) := by
  induction bytes with
  | nil => rfl
  | cons b rest ih =>
    have hlt : b.toNat < 256 := b.toNat_lt
    have hbyte : ofDocument (.int b.toNat) = .ok (.int (Int64.ofInt b.toNat)) :=
      ofDocument_int (by unfold Number.Word.least; omega) (by unfold Number.Word.greatest; omega)
    rw [List.map_cons, ofDocuments, hbyte, ih]
    rfl

mutual
/-- The document of a value is decoded as the value. -/
theorem ofDocument_toDocument : ∀ {v : Value}, Ordered v →
    ofDocument (toDocument v) = .ok (rawAsList v)
  | .empty, _ => rfl
  | .int n, _ => by
    have hlow : Number.Word.least ≤ n.toInt := n.le_toInt
    have hhigh : n.toInt ≤ Number.Word.greatest := Int.le_of_lt_add_one n.toInt_lt
    rw [toDocument, ofDocument_int hlow hhigh, Int64.ofInt_toInt]
    rfl
  | .text _, _ => rfl
  | .raw bytes, _ => by
    rw [toDocument, Document.list, ofDocument, ofDocuments_bytes]
    rfl
  | .list items, h => by
    rw [toDocument, ofDocument, ofDocuments_toDocuments h]
    rfl
  | .map entries, h => by
    have hordered : KeyMap.Ordered (entriesRawAsList entries) := by
      rw [KeyMap.Ordered, keys_entriesRawAsList]
      exact h.1
    have hdecoded : ofDocument (toDocument (.map entries)) =
        .ok (.map (KeyMap.ofList (entriesRawAsList entries))) := by
      rw [toDocument, ofDocument, ofMembers_toMembers h.2]
      rfl
    rw [hdecoded, hordered.ofList_eq, rawAsList]

theorem ofDocuments_toDocuments : ∀ {items : List Value}, OrderedItems items →
    ofDocuments (toDocuments items) = .ok (itemsRawAsList items)
  | [], _ => rfl
  | v :: rest, h => by
    rw [toDocuments, ofDocuments, ofDocument_toDocument h.1, ofDocuments_toDocuments h.2]
    rfl

theorem ofMembers_toMembers : ∀ {entries : List (String × Value)}, OrderedEntries entries →
    ofMembers (toMembers entries) = .ok (entriesRawAsList entries)
  | [], _ => rfl
  | (key, v) :: rest, h => by
    rw [toMembers, ofMembers, ofDocument_toDocument h.1, ofMembers_toMembers h.2]
    rfl
end

/-- **A value is read back from its JSON**, with raw payloads as lists of integers. -/
theorem ofJson_toJson {v : Value} (hv : v.Ordered)
    (hnesting : v.toDocument.nesting ≤ Json.nestingLimit) :
    ofJson v.toJson = .ok v.rawAsList ∧ (v.RawFree → ofJson v.toJson = .ok v) := by
  have hread : Json.Reading.ofText Json.nestingLimit v.toJson = ⟨v.toDocument, true⟩ :=
    Json.Reading.ofText_render (writable_toDocument v) hnesting
  have hback : ofJson v.toJson = .ok v.rawAsList := by
    rw [ofJson, hread, Json.Reading.decode, ofDocument_toDocument hv]
    rfl
  refine ⟨hback, fun hfree => ?_⟩
  rw [hback, hfree.rawAsList_eq]

/-- The ends of the integers, a raw payload, and texts and keys with what strings escape. -/
def extremes : Value :=
  .map [("", .list [.int Int64.minValue, .int Int64.maxValue, .empty]),
    ("\x01\t\"\\", .raw [0, 255]), ("é😀", .map [("\x7f", .text "\n/\x1f")])]

theorem ofJson_toJson_extremes :
    extremes.Ordered ∧ extremes.toDocument.nesting ≤ Json.nestingLimit ∧
      ofJson extremes.toJson = .ok extremes.rawAsList := by
  have hordered : extremes.Ordered := by
    simp only [extremes, Ordered, OrderedItems, OrderedEntries, KeyMap.Ordered]
    decide
  have hnesting : extremes.toDocument.nesting ≤ Json.nestingLimit := by decide
  exact ⟨hordered, hnesting, (ofJson_toJson hordered hnesting).1⟩

end TorrentControl.Value

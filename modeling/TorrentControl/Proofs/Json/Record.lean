import Mathlib.Data.List.Forall2
import TorrentControl.Json.Record
import TorrentControl.Proofs.Json.Document
import TorrentControl.Proofs.KeyMap

/-! # Records are read back from their members

A record is written as an object with a member for each of its columns, in their order. A member whose
column holds its default may be left out, for a reader starts with the defaults. What may be written
for a value is a relation, since the records inside it may be written with or without such members. -/

namespace TorrentControl.Json

variable {σ α : Type}

/-! ## Values -/

/-- Every document that is written for the value can be written, and is decoded as the value. -/
def ReadBack (Writes : α → Document → Prop) (decode : Document → Decoded α) (a : α) : Prop :=
  ∀ d, Writes a d → d.Writable ∧ decode d = .ok a

/-- One document is written for the value. -/
def Exactly (write : α → Document) (a : α) (d : Document) : Prop :=
  d = write a

/-- An array is written for the values, with an item for each. -/
def Each (Writes : α → Document → Prop) (as : List α) (d : Document) : Prop :=
  ∃ items, List.Forall₂ Writes as items ∧ d = .list items

theorem each_map {Writes : α → Document → Prop} {write : α → Document}
    (h : ∀ a, Writes a (write a)) (as : List α) : Each Writes as (.list (as.map write)) :=
  ⟨_, List.forall₂_map_right_iff.2 (List.forall₂_same.2 fun a _ => h a), rfl⟩

theorem readBack_string (s : String) : ReadBack (Exactly .string) Document.asString s := by
  rintro _ rfl
  exact ⟨rfl, rfl⟩

theorem readBack_bool (b : Bool) : ReadBack (Exactly .bool) Document.asBool b := by
  rintro _ rfl
  exact ⟨trivial, rfl⟩

theorem asInteger_int {name : String} {least greatest n : Int} (hlow : least ≤ n)
    (hhigh : n ≤ greatest) (hleast : Number.Word.least ≤ n) (hgreatest : n ≤ Number.Word.greatest) :
    Document.asInteger name least greatest (.int n) = .ok n := by
  have hvalue : (Numeral.ofInt n).value = .integer n :=
    Numeral.value_ofInt hleast (Int.le_trans hgreatest (by decide))
  rw [Document.int, Document.asInteger, hvalue]
  exact if_pos ⟨hlow, hhigh⟩

/-- How words are written. -/
def writeWord (w : Int64) : Document :=
  .int w.toInt

theorem readBack_word (w : Int64) : ReadBack (Exactly writeWord) Document.asWord w := by
  rintro _ rfl
  have hlow : Number.Word.least ≤ w.toInt := w.le_toInt
  have hhigh : w.toInt ≤ Number.Word.greatest := Int.le_of_lt_add_one w.toInt_lt
  refine ⟨Numeral.wellFormed_ofInt _, ?_⟩
  rw [Document.asWord, writeWord, asInteger_int hlow hhigh hlow hhigh]
  exact congrArg Except.ok w.ofInt_toInt

/-- How ports are written. -/
def writePort (port : UInt16) : Document :=
  .int port.toNat

theorem readBack_port (port : UInt16) : ReadBack (Exactly writePort) Document.asPort port := by
  rintro _ rfl
  have hlt := port.toNat_lt
  have hleast : Number.Word.least ≤ (port.toNat : Int) := by unfold Number.Word.least; omega
  have hgreatest : (port.toNat : Int) ≤ Number.Word.greatest := by
    unfold Number.Word.greatest
    omega
  refine ⟨Numeral.wellFormed_ofInt _, ?_⟩
  rw [Document.asPort, writePort, asInteger_int (by omega) (by omega) hleast hgreatest]
  exact congrArg Except.ok port.ofNat_toNat

/-- A value that may be absent is read back, as nothing else is written as null. -/
theorem readBack_option {write : α → Document} {decode : Document → Decoded α}
    (h : ∀ a, ReadBack (Exactly write) decode a) (hnull : ∀ a, write a ≠ .null) (o : Option α) :
    ReadBack (Exactly (Document.ofOption write)) (Document.asOption decode) o := by
  rintro _ rfl
  cases o with
  | none => exact ⟨trivial, rfl⟩
  | some a =>
    obtain ⟨hwritable, hdecode⟩ := h a _ rfl
    refine ⟨hwritable, ?_⟩
    rw [Document.ofOption, Document.asOption, hdecode]
    · rfl
    · exact hnull a

theorem readBack_each {Writes : α → Document → Prop} {decode : Document → Decoded α} {as : List α}
    (h : ∀ a ∈ as, ReadBack Writes decode a) :
    ReadBack (Each Writes) (Document.asList decode) as := by
  rintro _ ⟨items, hitems, rfl⟩
  have hall : Document.WritableItems items ∧ items.mapM decode = .ok as := by
    induction hitems with
    | nil => exact ⟨trivial, rfl⟩
    | @cons a d as items hd _ ih =>
      obtain ⟨hwritable, hdecode⟩ := h a (.head _) d hd
      obtain ⟨hrest, hmap⟩ := ih fun a ha => h a (.tail _ ha)
      exact ⟨⟨hwritable, hrest⟩, by rw [List.mapM_cons, hdecode, hmap]; rfl⟩
  refine ⟨⟨hall.1, rfl⟩, ?_⟩
  rw [Document.list, Document.asList, hall.2]
  rfl

/-- A member whose key was read. -/
def keyed (member : String × Document) : Option String × Document :=
  (some member.1, member.2)

theorem record_eq (members : List (String × Document)) :
    Document.record members = .object (members.map keyed) .closed := rfl

/-- How a map from texts to texts is written. -/
def writeTextMap (entries : KeyMap String) : Document :=
  .record (entries.map fun entry => (entry.1, .string entry.2))

theorem readBack_textMap {entries : KeyMap String} (h : entries.Ordered) :
    ReadBack (Exactly writeTextMap) Document.asTextMap entries := by
  rintro _ rfl
  have hwritable (entries : KeyMap String) : Document.WritableMembers
      ((entries.map fun entry => (entry.1, Document.string entry.2)).map keyed) := by
    induction entries with
    | nil => trivial
    | cons entry rest ih => exact ⟨rfl, rfl, ih⟩
  refine ⟨⟨hwritable entries, rfl⟩, ?_⟩
  have hmapM {f : Option String × Document → Decoded (String × String)}
      (hf : ∀ key s, f (some key, .string s) = .ok (key, s)) (entries : KeyMap String) :
      ((entries.map fun entry => (entry.1, Document.string entry.2)).map keyed).mapM f =
        .ok entries := by
    induction entries with
    | nil => rfl
    | cons entry rest ih =>
      rw [List.map_cons, List.map_cons, List.mapM_cons, ih, keyed, hf]
      rfl
  rw [writeTextMap, record_eq, Document.asTextMap, hmapM fun _ _ => rfl]
  exact congrArg Except.ok h.ofList_eq

/-! ## Records -/

/-- A column of records: its name, what is written for it, and whether it holds its default. -/
structure Column (σ : Type) where
  name : String
  Writes : σ → Document → Prop
  IsDefault : σ → Prop

def Column.of (name : String) (get : σ → α) (Writes : α → Document → Prop) (default : α) :
    Column σ :=
  { name, Writes := fun record => Writes (get record), IsDefault := fun record => get record = default }

/-- The members are written for the columns in order, some columns with their default left out. -/
inductive Members (record : σ) : List (Column σ) → List (String × Document) → Prop
  | nil : Members record [] []
  | keep {column : Column σ} {columns : List (Column σ)} {d : Document}
      {members : List (String × Document)} : column.Writes record d →
      Members record columns members →
      Members record (column :: columns) ((column.name, d) :: members)
  | leaveOut {column : Column σ} {columns : List (Column σ)} {members : List (String × Document)} :
      column.IsDefault record → Members record columns members →
      Members record (column :: columns) members

/-- An object is written for the record. -/
def AsRecord (columns : List (Column σ)) (record : σ) (d : Document) : Prop :=
  ∃ members, Members record columns members ∧ d = .record members

/-- The fields fill the columns one after the other: each is put into a record that has the columns
before it, and that need not change if the column holds its default. -/
inductive Fills (record : σ) : σ → List (Field σ) → List (Column σ) → Prop
  | nil : Fills record record [] []
  | cons {field : Field σ} {column : Column σ} {fields : List (Field σ)} {columns : List (Column σ)}
      {start next : σ} : field.name = column.name →
      (∀ d, column.Writes record d → d.Writable ∧ field.put start d = .ok next) →
      (column.IsDefault record → next = start) → Fills record next fields columns →
      Fills record start (field :: fields) (column :: columns)

theorem Fills.field {record start : σ} {name : String} {get : σ → α} {set : σ → α → σ}
    {Writes : α → Document → Prop} {decode : Document → Decoded α} {default : α}
    {fields : List (Field σ)} {columns : List (Column σ)}
    (hread : ReadBack Writes decode (get record)) (hdefault : set start default = start)
    (hrest : Fills record (set start (get record)) fields columns) :
    Fills record start (.of name decode set :: fields)
      (.of name get Writes default :: columns) := by
  refine .cons rfl (fun d hd => ?_) (fun h => ?_) hrest
  · obtain ⟨hwritable, hdecode⟩ := hread d hd
    refine ⟨hwritable, ?_⟩
    change set start <$> decode d = _
    rw [hdecode]
    rfl
  · exact (congrArg (set start) h).trans hdefault

theorem Fills.writable {record start : σ} {fields : List (Field σ)} {columns : List (Column σ)}
    {members : List (String × Document)} (h : Fills record start fields columns)
    (hmembers : Members record columns members) :
    Document.WritableMembers (members.map keyed) := by
  induction h generalizing members with
  | nil =>
    cases hmembers
    trivial
  | cons _ hput _ _ ih =>
    cases hmembers with
    | keep hd hrest => exact ⟨rfl, (hput _ hd).1, ih hrest⟩
    | leaveOut _ hrest => exact ih hrest

/-- Members are put into a record one after the other. -/
theorem Fills.putMembers {record start : σ} {shape : RecordShape σ} {done fields : List (Field σ)}
    {columns : List (Column σ)} {members : List (String × Document)} (met : List String)
    (hnames : (shape.fields.map Field.name).Nodup) (hfields : shape.fields = done ++ fields)
    (h : Fills record start fields columns) (hmembers : Members record columns members)
    (hmet : ∀ name ∈ met, name ∈ done.map Field.name) :
    ∃ names, shape.putMembers start met (members.map keyed) = .ok (record, names) := by
  induction h generalizing done members met with
  | nil =>
    cases hmembers
    exact ⟨met, rfl⟩
  | @cons field column fields columns start next hname hput hdefault _ ih =>
    have hdone : shape.fields = (done ++ [field]) ++ fields := by simpa using hfields
    cases hmembers with
    | leaveOut hcolumn hrest =>
      rw [← hdefault hcolumn]
      refine ih met hdone hrest fun name hmem => ?_
      rw [List.map_append]
      exact List.mem_append_left _ (hmet name hmem)
    | @keep _ _ d members hd hrest =>
      -- no field before this one has its name
      have hbefore : ∀ other ∈ done, other.name ≠ column.name := by
        rw [hfields, List.map_append, List.nodup_append] at hnames
        exact fun other hother => hname ▸ hnames.2.2 _ (List.mem_map_of_mem hother) _ (by simp)
      have hfind : shape.fields.find? (fun field => field.name == column.name) = some field := by
        have hnone : done.find? (fun field => field.name == column.name) = none :=
          List.find?_eq_none.2 fun other hother => by simpa using hbefore other hother
        rw [hfields, List.find?_append, hnone, List.find?_cons_of_pos (by simp [hname])]
        rfl
      have hnew : met.contains column.name = false := by
        have hnot : column.name ∉ met := fun hmem => by
          obtain ⟨other, hother, heq⟩ := List.mem_map.1 (hmet _ hmem)
          exact hbefore other hother heq
        simpa using hnot
      obtain ⟨names, hrest⟩ := ih (column.name :: met) hdone hrest fun name hmem => by
        rw [List.map_append, List.mem_append]
        rcases List.mem_cons.1 hmem with rfl | hmem
        · exact .inr (by simp [hname])
        · exact .inl (hmet name hmem)
      refine ⟨names, ?_⟩
      simp only [List.map_cons, keyed, RecordShape.putMembers, hfind, hnew, (hput d hd).2]
      exact hrest

theorem readBack_record {record : σ} (shape : RecordShape σ) {columns : List (Column σ)}
    (hnames : (shape.fields.map Field.name).Nodup)
    (h : Fills record shape.start shape.fields columns) :
    ReadBack (AsRecord columns) (fun d => Prod.fst <$> shape.decode d) record := by
  rintro _ ⟨members, hmembers, rfl⟩
  have hfields : shape.fields = [] ++ shape.fields := rfl
  obtain ⟨names, hput⟩ := h.putMembers [] hnames hfields hmembers nofun
  refine ⟨⟨h.writable hmembers, rfl⟩, ?_⟩
  simp only [record_eq, RecordShape.decode, hput]
  rfl

end TorrentControl.Json

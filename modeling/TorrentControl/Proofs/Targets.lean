import TorrentControl.Proofs.Json.Decoding
import TorrentControl.Rpc.Request

/-! # What is written for a target

A target is the name of its variant, or an object whose one member has that name for its key and
holds what the target needs. Nothing else is read as a target. But not everything else is told to
have the wrong shape: a target that goes on where it would end counts as no JSON, and so does one
that is neither a text nor an object with a member. -/

namespace TorrentControl.Rpc

open Json (Document Numeral Problem)
open Outcome

/-- The number is the position: an integer of 64 unsigned bits. -/
structure IsPosition (n : Numeral) (i : Nat) : Prop where
  integral : n.IsIntegral
  value : n.toInt = i
  fits : i < 2 ^ 64

namespace TargetSpec

/-- An object whose only member has the name for its key. -/
def tagged (name : String) (d : Document) : Document :=
  .record [(name, d)]

/-- **The document is written for the target.** -/
inductive Writes : TargetSpec → Document → Prop where
  | name : Writes .generic (.string "generic")
  | generic : Writes .generic (tagged "generic" .null)
  | download {hash : String} : Writes (.download hash) (tagged "download" (.string hash))
  | file {hash : String} {n : Numeral} {i : Nat} (h : IsPosition n i) :
      Writes (.file hash i) (tagged "file" (.list [.string hash, .number n]))
  | fileCursor {hash : String} {n : Numeral} {i : Nat} (h : IsPosition n i) :
      Writes (.fileCursor hash i) (tagged "file_cursor" (.list [.string hash, .number n]))
  | peer {hash : String} {n : Numeral} {i : Nat} (h : IsPosition n i) :
      Writes (.peer hash i) (tagged "peer" (.list [.string hash, .number n]))
  | tracker {hash : String} {n : Numeral} {i : Nat} (h : IsPosition n i) :
      Writes (.tracker hash i) (tagged "tracker" (.list [.string hash, .number n]))
  | downloadPair {first second : String} : Writes (.downloadPair first second)
      (tagged "download_pair" (.list [.string first, .string second]))

theorem Writes.joined {t : TargetSpec} {d : Document} (h : t.Writes d) : d.Joined := by
  cases h <;> simp [tagged, Document.record, Document.list, Document.string, Document.Joined,
    Document.JoinedItems, Document.JoinedMembers]

/-! ## Each target has a document -/

theorem isPosition_ofInt {i : Nat} (h : i < 2 ^ 64) : IsPosition (.ofInt i) i := by
  have hleast : Number.Word.least = -2 ^ 63 := rfl
  have hsignificand : (Numeral.greatestSignificand : Int) = 2 ^ 64 - 1 := rfl
  have hvalue : (Numeral.ofInt i).value = .integer i := Numeral.value_ofInt (by omega) (by omega)
  obtain ⟨hintegral, -, -, hint⟩ :=
    Numeral.integer?_eq_some_iff.1 (Numeral.value_eq_integer_iff.1 hvalue)
  exact ⟨hintegral, hint.symm, h⟩

/-- The positions in the target have 64 bits. -/
def Fits : TargetSpec → Prop
  | .file _ i | .fileCursor _ i | .peer _ i | .tracker _ i => i < 2 ^ 64
  | .generic | .download _ | .downloadPair _ _ => True

/-- A place in a list of a download, as a document. -/
def place (name hash : String) (i : Nat) : Document :=
  tagged name (.list [.string hash, .int i])

def toDocument : TargetSpec → Document
  | .generic => .string "generic"
  | .download hash => tagged "download" (.string hash)
  | .file hash i => place "file" hash i
  | .fileCursor hash i => place "file_cursor" hash i
  | .peer hash i => place "peer" hash i
  | .tracker hash i => place "tracker" hash i
  | .downloadPair first second => tagged "download_pair" (.list [.string first, .string second])

theorem writes_toDocument {t : TargetSpec} (h : t.Fits) : t.Writes t.toDocument := by
  cases t with
  | generic => exact .name
  | download => exact .download
  | file => exact .file (isPosition_ofInt h)
  | fileCursor => exact .fileCursor (isPosition_ofInt h)
  | peer => exact .peer (isPosition_ofInt h)
  | tracker => exact .tracker (isPosition_ofInt h)
  | downloadPair => exact .downloadPair

theorem writable_toDocument (t : TargetSpec) : t.toDocument.Writable := by
  have hint (i : Nat) : (Numeral.ofInt i).WellFormed := Numeral.wellFormed_ofInt _
  cases t <;> simp [toDocument, place, tagged, Document.record, Document.list, Document.string,
    Document.int, Document.Writable, Document.WritableItems, Document.WritableMembers, hint]

theorem nesting_toDocument_le (t : TargetSpec) : t.toDocument.nesting ≤ 2 := by
  cases t <;> exact Nat.le_of_ble_eq_true rfl

/-! ## Reading them -/

theorem asPosition_eq_ok_iff {d : Document} {i : Nat} :
    asPosition d = .ok i ↔ ∃ n, d = .number n ∧ IsPosition n i := by
  have hgreatest : (greatestPosition : Int) = 2 ^ 64 - 1 := rfl
  have hsignificand : (Numeral.greatestSignificand : Int) = 2 ^ 64 - 1 := rfl
  have hleast : Number.Word.least = -2 ^ 63 := rfl
  simp only [asPosition, map_eq_ok_iff, Json.asInteger_eq_ok_iff, Numeral.value_eq_integer_iff,
    Numeral.integer?_eq_some_iff]
  constructor
  · rintro ⟨z, ⟨n, rfl, ⟨hintegral, -, -, rfl⟩, hlow, hhigh⟩, rfl⟩
    exact ⟨n, rfl, hintegral, by omega, by omega⟩
  · rintro ⟨n, rfl, hintegral, hvalue, hfits⟩
    exact ⟨i, ⟨n, rfl, ⟨hintegral, by omega, by omega, hvalue.symm⟩, by omega, by omega⟩, rfl⟩

section

variable {α β : Type} {title : String} {first : Document → Json.Decoded α}
  {second : Document → Json.Decoded β}

theorem readTwo_cons (x y : Document) (rest : List Document) (ending : Json.Ending) :
    readTwo title first second (.array (x :: y :: rest) ending) =
      first x >>= fun a => second y >>= fun b => Document.close ending >>= fun _ =>
        if rest.isEmpty then .ok (a, b) else .error .malformed := by
  cases ending <;> rfl

theorem readTwo_one (x : Document) (ending : Json.Ending) : ∃ tooShort,
    readTwo title first second (.array [x] ending) = first x >>= fun _ => .error tooShort := by
  cases ending <;> exact ⟨_, rfl⟩

theorem readTwo_eq_ok_iff {d : Document} {pair : α × β} :
    readTwo title first second d = .ok pair ↔
      ∃ x y, d = .list [x, y] ∧ first x = .ok pair.1 ∧ second y = .ok pair.2 := by
  obtain ⟨a, b⟩ := pair
  constructor
  · intro h
    cases d with
    | null | bool | number | text | object | broken => cases h
    | array items ending =>
      match items with
      | [] => cases ending <;> cases h
      | [x] =>
        obtain ⟨tooShort, hone⟩ := @readTwo_one _ _ title first second x ending
        rw [hone, bind_eq_ok_iff] at h
        obtain ⟨_, -, ⟨⟩⟩ := h
      | x :: y :: rest =>
        simp only [readTwo_cons, bind_eq_ok_iff] at h
        obtain ⟨a', ha, b', hb, _, hclosed, hpair⟩ := h
        cases ending with
        | stopped => cases hclosed
        | closed =>
          cases rest with
          | cons => cases hpair
          | nil =>
            cases hpair
            exact ⟨x, y, rfl, ha, hb⟩
  · rintro ⟨x, y, rfl, hx, hy⟩
    rw [Document.list, readTwo_cons, hx, hy]
    rfl

end

/-- What is written for the content of a target. -/
inductive Content.Holds : Content → TargetSpec → Document → Prop where
  | nothing : Holds .nothing .generic .null
  | hash {make : String → TargetSpec} {hash : String} : Holds (.hash make) (make hash) (.string hash)
  | place {title : String} {make : String → Nat → TargetSpec} {hash : String} {n : Numeral}
      {i : Nat} (h : IsPosition n i) :
      Holds (.place title make) (make hash i) (.list [.string hash, .number n])
  | hashes {title : String} {make : String → String → TargetSpec} {first second : String} :
      Holds (.hashes title make) (make first second) (.list [.string first, .string second])

theorem Content.read_eq_ok_iff {content : Content} {d : Document} {t : TargetSpec} :
    content.read d = .ok t ↔ content.Holds t d := by
  cases content with
  | nothing =>
    constructor
    · intro h
      cases d with
      | null =>
        cases h
        exact .nothing
      | bool | number | text | array | object | broken => cases h
    · rintro ⟨⟩
      rfl
  | hash make =>
    simp only [Content.read, map_eq_ok_iff, Json.asString_eq_ok_iff]
    constructor
    · rintro ⟨hash, rfl, rfl⟩
      exact .hash
    · rintro ⟨⟩
      exact ⟨_, rfl, rfl⟩
  | place title make =>
    simp only [Content.read, map_eq_ok_iff, readTwo_eq_ok_iff, Json.asString_eq_ok_iff,
      asPosition_eq_ok_iff]
    constructor
    · rintro ⟨⟨hash, i⟩, ⟨_, _, rfl, rfl, n, rfl, hn⟩, rfl⟩
      exact .place hn
    · rintro ⟨⟩
      exact ⟨(_, _), ⟨_, _, rfl, rfl, _, rfl, ‹_›⟩, rfl⟩
  | hashes title make =>
    simp only [Content.read, map_eq_ok_iff, readTwo_eq_ok_iff, Json.asString_eq_ok_iff]
    constructor
    · rintro ⟨⟨first, second⟩, ⟨_, _, rfl, rfl, rfl⟩, rfl⟩
      exact .hashes
    · rintro ⟨⟩
      exact ⟨(_, _), ⟨_, _, rfl, rfl, rfl⟩, rfl⟩

theorem findVariant_eq_ok_iff {name : String} {content : Content} :
    findVariant name = .ok content ↔ (name, content) ∈ variants := by
  constructor
  · intro h
    unfold findVariant at h
    split at h
    · rename_i found hfind
      cases h
      have hname := List.find?_some hfind
      rw [← eq_of_beq hname]
      exact List.mem_of_find?_eq_some hfind
    · cases h
  · intro h
    simp only [variants, List.mem_cons, Prod.mk.injEq, List.not_mem_nil, or_false] at h
    rcases h with ⟨rfl, rfl⟩ | ⟨rfl, rfl⟩ | ⟨rfl, rfl⟩ | ⟨rfl, rfl⟩ | ⟨rfl, rfl⟩ | ⟨rfl, rfl⟩ |
      ⟨rfl, rfl⟩ <;> rfl

theorem tagged_inj {name name' : String} {d d' : Document} :
    tagged name d = tagged name' d' ↔ name = name' ∧ d = d' := by
  simp [tagged, Document.record]

theorem writes_tagged_iff {t : TargetSpec} {name : String} {d : Document} :
    t.Writes (tagged name d) ↔ ∃ content, (name, content) ∈ variants ∧ content.Holds t d := by
  constructor
  · intro h
    generalize htagged : tagged name d = written at h
    cases h with
    | name => cases htagged
    | generic =>
      obtain ⟨rfl, rfl⟩ := tagged_inj.1 htagged
      exact ⟨.nothing, by simp [variants], .nothing⟩
    | download =>
      obtain ⟨rfl, rfl⟩ := tagged_inj.1 htagged
      exact ⟨.hash .download, by simp [variants], .hash⟩
    | file h =>
      obtain ⟨rfl, rfl⟩ := tagged_inj.1 htagged
      exact ⟨.place "File" .file, by simp [variants], .place h⟩
    | fileCursor h =>
      obtain ⟨rfl, rfl⟩ := tagged_inj.1 htagged
      exact ⟨.place "FileCursor" .fileCursor, by simp [variants], .place h⟩
    | peer h =>
      obtain ⟨rfl, rfl⟩ := tagged_inj.1 htagged
      exact ⟨.place "Peer" .peer, by simp [variants], .place h⟩
    | tracker h =>
      obtain ⟨rfl, rfl⟩ := tagged_inj.1 htagged
      exact ⟨.place "Tracker" .tracker, by simp [variants], .place h⟩
    | downloadPair =>
      obtain ⟨rfl, rfl⟩ := tagged_inj.1 htagged
      exact ⟨.hashes "DownloadPair" .downloadPair, by simp [variants], .hashes⟩
  · rintro ⟨content, hvariant, h⟩
    simp only [variants, List.mem_cons, Prod.mk.injEq, List.not_mem_nil, or_false] at hvariant
    rcases hvariant with ⟨rfl, rfl⟩ | ⟨rfl, rfl⟩ | ⟨rfl, rfl⟩ | ⟨rfl, rfl⟩ | ⟨rfl, rfl⟩ |
      ⟨rfl, rfl⟩ | ⟨rfl, rfl⟩
    · cases h
      exact .generic
    · cases h
      exact .download
    · cases h with | place h => exact .file h
    · cases h with | place h => exact .fileCursor h
    · cases h with | place h => exact .peer h
    · cases h with | place h => exact .tracker h
    · cases h
      exact .downloadPair

/-- The variant is looked up, its content is read, and nothing may follow. -/
theorem ofDocument_object (name : String) (d : Document)
    (rest : List (Option String × Document)) (ending : Json.Ending) :
    ofDocument (.object ((some name, d) :: rest) ending) =
      findVariant name >>= fun content => content.read d >>= fun t =>
        Document.close ending >>= fun _ => if rest.isEmpty then .ok t else .error .malformed := rfl

theorem ofDocument_object_eq_ok_iff {name : String} {d : Document}
    {rest : List (Option String × Document)} {ending : Json.Ending} {t : TargetSpec} :
    ofDocument (.object ((some name, d) :: rest) ending) = .ok t ↔
      t.Writes (tagged name d) ∧ rest = [] ∧ ending = .closed := by
  simp only [ofDocument_object, bind_eq_ok_iff, findVariant_eq_ok_iff, Content.read_eq_ok_iff,
    writes_tagged_iff]
  constructor
  · rintro ⟨content, hvariant, t', hholds, _, hclose, hrest⟩
    cases ending with
    | stopped => cases hclose
    | closed =>
      cases rest with
      | cons => cases hrest
      | nil =>
        cases hrest
        exact ⟨⟨content, hvariant, hholds⟩, rfl, rfl⟩
  · rintro ⟨⟨content, hvariant, hholds⟩, rfl, rfl⟩
    exact ⟨content, hvariant, t, hholds, (), rfl, rfl⟩

theorem Writes.shape {t : TargetSpec} {d : Document} (h : t.Writes d) :
    (d = .string "generic" ∧ t = .generic) ∨ ∃ name content, d = tagged name content := by
  cases h with
  | name => exact .inl ⟨rfl, rfl⟩
  | _ => exact .inr ⟨_, _, rfl⟩

/-- **A target is read from what is written for it, and from nothing else.** -/
theorem ofDocument_eq_ok_iff {d : Document} {t : TargetSpec} :
    ofDocument d = .ok t ↔ t.Writes d := by
  constructor
  · intro h
    unfold ofDocument at h
    split at h
    · obtain ⟨content, hvariant, hname⟩ := bind_eq_ok_iff.1 h
      rw [findVariant_eq_ok_iff] at hvariant
      simp only [variants, List.mem_cons, Prod.mk.injEq, List.not_mem_nil, or_false] at hvariant
      rcases hvariant with ⟨rfl, rfl⟩ | ⟨rfl, rfl⟩ | ⟨rfl, rfl⟩ | ⟨rfl, rfl⟩ | ⟨rfl, rfl⟩ |
        ⟨rfl, rfl⟩ | ⟨rfl, rfl⟩ <;> cases hname
      exact .name
    · obtain ⟨hwrites, rfl, rfl⟩ := ofDocument_object_eq_ok_iff.1 h
      exact hwrites
    · cases h
    · cases h
  · intro h
    obtain ⟨rfl, rfl⟩ | ⟨name, content, rfl⟩ := h.shape
    · rfl
    · exact ofDocument_object_eq_ok_iff.2 ⟨h, rfl, rfl⟩

theorem Writes.unique {t t' : TargetSpec} {d : Document} (h : t.Writes d) (h' : t'.Writes d) :
    t = t' :=
  Except.ok.inj ((ofDocument_eq_ok_iff.2 h).symm.trans (ofDocument_eq_ok_iff.2 h'))

/-! ## Faults that count as faults of form

A target is taken for complete as soon as it has what it needs, and what comes then has no place in
it. The reader calls that a fault of form, though it may be good JSON. -/

/-- **The document is not written for any target, and yet no fault of its shape is told**: it is
neither a text nor an object, it has no member, or it goes on where a target would end. -/
inductive Misread : Document → Prop where
  | null : Misread .null
  | bool {b : Bool} : Misread (.bool b)
  | number {n : Numeral} : Misread (.number n)
  | array {items : List Document} : Misread (.list items)
  | empty : Misread (.record [])
  | members {t : TargetSpec} {name : String} {d : Document} {member : Option String × Document}
      {rest : List (Option String × Document)} (h : t.Writes (tagged name d)) :
      Misread (.object ((some name, d) :: member :: rest) .closed)
  | items {t : TargetSpec} {name : String} {first second third : Document} {items : List Document}
      {rest : List (Option String × Document)} (h : t.Writes (tagged name (.list [first, second]))) :
      Misread (.object ((some name, .list (first :: second :: third :: items)) :: rest) .closed)

section

variable {α β : Type} {title : String} {first : Document → Json.Decoded α}
  {second : Document → Json.Decoded β} {d : Document}

theorem readTwo_eq_malformed_iff (hfirst : Json.Frank first) (hsecond : Json.Frank second)
    (h : d.Sound) : readTwo title first second d = .error .malformed ↔
      ∃ x y z items pair, d = .list (x :: y :: z :: items) ∧
        readTwo title first second (.list [x, y]) = .ok pair := by
  constructor
  · intro hread
    cases d with
    | null | bool | number | text | object | broken =>
      exact absurd (Except.error.inj hread) (h.unexpected _)
    | array items ending =>
      obtain rfl := h.writable.2
      match items with
      | [] => cases hread
      | [x] =>
        rcases bind_eq_error_iff.1 hread with hx | ⟨a, -, hshort⟩
        · exact absurd hx (hfirst h.cons.1)
        · cases hshort
      | x :: y :: rest =>
        rw [readTwo_cons] at hread
        rcases bind_eq_error_iff.1 hread with hx | ⟨a, ha, hread⟩
        · exact absurd hx (hfirst h.cons.1)
        rcases bind_eq_error_iff.1 hread with hy | ⟨b, hb, hread⟩
        · exact absurd hy (hsecond h.cons.2.cons.1)
        cases rest with
        | nil => cases hread
        | cons z rest => exact ⟨x, y, z, rest, (a, b), rfl, readTwo_eq_ok_iff.2 ⟨x, y, rfl, ha, hb⟩⟩
  · rintro ⟨x, y, z, items, pair, rfl, hread⟩
    obtain ⟨_, _, ⟨⟩, hx, hy⟩ := readTwo_eq_ok_iff.1 hread
    rw [Document.list, readTwo_cons, hx, hy]
    rfl

end

theorem frank_asPosition : Json.Frank asPosition :=
  (Json.frank_asInteger _ _ _).map _

theorem Content.read_eq_malformed_iff {content : Content} {d : Document} (h : d.Sound) :
    content.read d = .error .malformed ↔ ∃ t x y z items, d = .list (x :: y :: z :: items) ∧
      content.Holds t (.list [x, y]) := by
  cases content with
  | nothing =>
    refine iff_of_false (fun hread => ?_) ?_
    · cases d with
      | null => cases hread
      | bool | number | text | array | object | broken =>
        exact h.unexpected _ (Except.error.inj hread)
    · rintro ⟨t, x, y, z, items, rfl, ⟨⟩⟩
  | hash make =>
    refine iff_of_false ((Json.frank_asString.map make) h) ?_
    rintro ⟨t, x, y, z, items, rfl, ⟨⟩⟩
  | place title make =>
    simp only [Content.read, map_eq_error_iff,
      readTwo_eq_malformed_iff Json.frank_asString frank_asPosition h, ← read_eq_ok_iff,
      map_eq_ok_iff]
    constructor
    · rintro ⟨x, y, z, items, pair, rfl, hread⟩
      exact ⟨_, x, y, z, items, rfl, pair, hread, rfl⟩
    · rintro ⟨t, x, y, z, items, rfl, pair, hread, -⟩
      exact ⟨x, y, z, items, pair, rfl, hread⟩
  | hashes title make =>
    simp only [Content.read, map_eq_error_iff,
      readTwo_eq_malformed_iff Json.frank_asString Json.frank_asString h, ← read_eq_ok_iff,
      map_eq_ok_iff]
    constructor
    · rintro ⟨x, y, z, items, pair, rfl, hread⟩
      exact ⟨_, x, y, z, items, rfl, pair, hread, rfl⟩
    · rintro ⟨t, x, y, z, items, rfl, pair, hread, -⟩
      exact ⟨x, y, z, items, pair, rfl, hread⟩

theorem findVariant_ne_malformed (name : String) : findVariant name ≠ .error .malformed := by
  unfold findVariant
  split <;> nofun

theorem ofDocument_eq_malformed_iff {d : Document} (h : d.Sound) :
    ofDocument d = .error .malformed ↔ Misread d := by
  constructor
  · intro hread
    match d, h with
    | .null, _ => exact .null
    | .bool _, _ => exact .bool
    | .number _, _ => exact .number
    | .text (some name), _ =>
      rcases bind_eq_error_iff.1 hread with hfind | ⟨content, -, hname⟩
      · exact absurd hfind (findVariant_ne_malformed name)
      · cases content <;> cases hname
    | .array items ending, h =>
      obtain rfl := h.writable.2
      exact .array
    | .object [] ending, h =>
      obtain rfl := h.writable.2
      exact .empty
    | .object ((none, _) :: _) _, h => cases h.member.1
    | .object ((some name, d) :: rest) ending, h =>
      obtain rfl := h.writable.2
      rw [ofDocument_object] at hread
      rcases bind_eq_error_iff.1 hread with hfind | ⟨content, hfind, hread⟩
      · exact absurd hfind (findVariant_ne_malformed name)
      rw [findVariant_eq_ok_iff] at hfind
      rcases bind_eq_error_iff.1 hread with hcontent | ⟨t, hcontent, hread⟩
      · obtain ⟨t, x, y, z, items, rfl, hholds⟩ :=
          (Content.read_eq_malformed_iff h.member.2.1).1 hcontent
        exact .items (writes_tagged_iff.2 ⟨content, hfind, hholds⟩)
      · have hwrites := writes_tagged_iff.2 ⟨content, hfind, Content.read_eq_ok_iff.1 hcontent⟩
        cases rest with
        | nil => cases hread
        | cons member rest => exact .members hwrites
  · intro hmisread
    cases hmisread with
    | null | bool | number | array | empty => rfl
    | members hwrites =>
      obtain ⟨content, hvariant, hholds⟩ := writes_tagged_iff.1 hwrites
      rw [ofDocument_object]
      refine bind_eq_error_iff.2 (.inr ⟨content, findVariant_eq_ok_iff.2 hvariant, ?_⟩)
      exact bind_eq_error_iff.2 (.inr ⟨_, Content.read_eq_ok_iff.2 hholds, rfl⟩)
    | items hwrites =>
      obtain ⟨content, hvariant, hholds⟩ := writes_tagged_iff.1 hwrites
      rw [ofDocument_object]
      refine bind_eq_error_iff.2 (.inr ⟨content, findVariant_eq_ok_iff.2 hvariant, ?_⟩)
      have hcontent := (Content.read_eq_malformed_iff h.member.2.1).2 ⟨_, _, _, _, _, rfl, hholds⟩
      exact bind_eq_error_iff.2 (.inl hcontent)

/-! ## Targets that break off -/

section

variable {α β : Type} {title : String} {first : Document → Json.Decoded α}
  {second : Document → Json.Decoded β}

theorem readTwo_first {x : Document} {p : Problem} (h : first x = .error p) (rest : List Document)
    (ending : Json.Ending) : readTwo title first second (.array (x :: rest) ending) = .error p := by
  unfold readTwo
  cases ending <;> exact bind_eq_error_iff.2 (.inl h)

/-- The second item is only looked at if it was begun. -/
theorem readTwo_stopped {x : Document} {rest : List Document} {next : Option Json.Token}
    {what : Json.Invalid} (h : readTwo title first second (.array (x :: rest) (.stopped next)) =
      .error (.invalid what)) : first x = .error (.invalid what) ∨
        ∃ a y more, first x = .ok a ∧ rest = y :: more ∧ second y = .error (.invalid what) := by
  match rest with
  | [] =>
    rcases bind_eq_error_iff.1 h with hx | ⟨a, -, hshort⟩
    · exact .inl hx
    · cases hshort
  | y :: more =>
    rw [readTwo_cons] at h
    rcases bind_eq_error_iff.1 h with hx | ⟨a, ha, h⟩
    · exact .inl hx
    rcases bind_eq_error_iff.1 h with hy | ⟨b, hb, h⟩
    · exact .inr ⟨a, y, more, ha, rfl, hy⟩
    · cases h

theorem steady_readTwo (hfirst : Json.Steady first) (hsecond : Json.Steady second) :
    Json.Steady (readTwo title first second) := by
  intro d d' what h hwhat
  cases h with
  | same => exact hwhat
  | broken => cases hwhat
  | object => exact hwhat
  | array hitems =>
    cases hitems with
    | nil => cases hwhat
    | last hx =>
      rcases readTwo_stopped hwhat with hwhat | ⟨_, _, _, -, ⟨⟩, -⟩
      exact readTwo_first (hfirst hx hwhat) _ _
    | @cons x rest rest' hrest =>
      rcases readTwo_stopped hwhat with hx | ⟨a, y, more, ha, rfl, hy⟩
      · exact readTwo_first hx _ _
      · obtain ⟨y', more', rfl, hy'⟩ : ∃ y' more', rest' = y' :: more' ∧
            second y' = .error (.invalid what) := by
          cases hrest with
          | last hbegins => exact ⟨_, _, rfl, hsecond hbegins hy⟩
          | cons => exact ⟨_, _, rfl, hy⟩
        rw [readTwo_cons]
        exact bind_eq_error_iff.2 (.inr ⟨a, ha, bind_eq_error_iff.2 (.inl hy')⟩)

end

theorem Content.steady_read (content : Content) : Json.Steady fun d => content.read d := by
  cases content with
  | nothing => exact .of_kind nofun (fun _ _ _ _ => rfl) fun _ _ _ _ => rfl
  | hash make => exact Json.steady_asString.map make
  | place title make =>
    exact (steady_readTwo Json.steady_asString ((Json.steady_asInteger _ _ _).map _)).map _
  | hashes title make => exact (steady_readTwo Json.steady_asString Json.steady_asString).map _

theorem steady_ofDocument : Json.Steady ofDocument := by
  intro d d' what h hwhat
  cases h with
  | same => exact hwhat
  | broken => cases hwhat
  | array => cases hwhat
  | @object members members' next hkey hmembers =>
    match members with
    | [] =>
      have hnext := hkey rfl
      simp only [List.mem_cons, List.not_mem_nil, or_false] at hnext
      rcases hnext with rfl | rfl <;> cases hwhat
    | (none, _) :: _ => cases hwhat
    | (some name, d) :: rest =>
      obtain ⟨d', more, rfl, hd⟩ := hmembers.head
      rw [ofDocument_object] at hwhat ⊢
      rw [bind_eq_error_iff] at hwhat ⊢
      refine hwhat.imp_right fun ⟨content, hfind, hread⟩ => ⟨content, hfind, ?_⟩
      rcases bind_eq_error_iff.1 hread with hcontent | ⟨t, -, hread⟩
      · exact bind_eq_error_iff.2 (.inl (content.steady_read hd hcontent))
      · cases hread

end TargetSpec

end TorrentControl.Rpc

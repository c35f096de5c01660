import Mathlib.Algebra.Group.Int.Defs
import Mathlib.Algebra.Group.Nat.Defs
import TorrentControl.Proofs.Json.Document
import TorrentControl.Proofs.KeyMap
import TorrentControl.Value.Json

/-! # Which texts are read as values

A text is read as a value if it is JSON whose numbers are integers that fit into a word. The value
has the form of the document, place for place, but that of several members with one key the last one
counts. Minus zero is written as an integer and is none, as no integer has its sign. -/

namespace TorrentControl

open Json (Document Numeral)

namespace Json

/-! ## Numbers that are words -/

/-- The integer that the sign and the whole part make. -/
def Numeral.toInt (n : Numeral) : Int :=
  if n.negative then -(Number.Decimal.ofDigits n.whole : Int) else Number.Decimal.ofDigits n.whole

/-- The numeral is written as an integer, and it is not minus zero. -/
structure Numeral.IsIntegral (n : Numeral) : Prop where
  fraction : n.fraction = []
  exponent : n.exponent = []
  not_minus_zero : ¬(n.negative = true ∧ n.toInt = 0)

/-- The numeral is an integer of 64 signed bits. -/
structure Numeral.IsWord (n : Numeral) : Prop extends n.IsIntegral where
  least : -2 ^ 63 ≤ n.toInt
  greatest : n.toInt ≤ 2 ^ 63 - 1

theorem Numeral.integer?_eq_some_iff {n : Numeral} {i : Int} : n.integer? = some i ↔
    n.IsIntegral ∧ Number.Word.least ≤ n.toInt ∧ n.toInt ≤ greatestSignificand ∧ i = n.toInt := by
  have hleast : Number.Word.least = -9223372036854775808 := rfl
  by_cases hinteger : n.isInteger = true
  · have hparts : n.fraction = [] ∧ n.exponent = [] := by simpa [isInteger] using hinteger
    have hintegral : n.IsIntegral ↔ ¬(n.negative = true ∧ n.toInt = 0) :=
      ⟨IsIntegral.not_minus_zero, fun h => ⟨hparts.1, hparts.2, h⟩⟩
    rw [hintegral, integer?, if_pos hinteger, toInt]
    cases n.negative with
    | true =>
      simp only [if_true, Option.ite_none_right_eq_some, Option.some.injEq, true_and]
      omega
    | false =>
      simp only [Bool.false_eq_true, if_false, Option.ite_none_right_eq_some, Option.some.injEq,
        false_and, not_false_iff, true_and]
      omega
  · have hnot : ¬n.IsIntegral := fun h => hinteger (by simp [isInteger, h.fraction, h.exponent])
    simp only [integer?, if_neg hinteger, hnot, false_and, reduceCtorEq]

theorem Numeral.value_eq_integer_iff {n : Numeral} {i : Int} :
    n.value = .integer i ↔ n.integer? = some i := by
  unfold value
  cases n.integer? with
  | some j => simp
  | none => cases n.magnitude <;> simp

mutual
/-- The numbers in a document, from left to right. -/
def Document.numerals : Document → List Numeral
  | .number n => [n]
  | .array items _ => itemNumerals items
  | .object members _ => memberNumerals members
  | _ => []

def Document.itemNumerals : List Document → List Numeral
  | [] => []
  | d :: rest => numerals d ++ itemNumerals rest

def Document.memberNumerals : List (Option String × Document) → List Numeral
  | [] => []
  | (_, d) :: rest => numerals d ++ memberNumerals rest
end

end Json

namespace Value

theorem ofNumeral_eq_ok_iff {n : Numeral} {v : Value} :
    ofNumeral n = .ok v ↔ n.IsWord ∧ v = .int (Int64.ofInt n.toInt) := by
  have hleast : Number.Word.least = -2 ^ 63 := rfl
  have hgreatest : Number.Word.greatest = 2 ^ 63 - 1 := rfl
  have hsignificand : (Numeral.greatestSignificand : Int) = 2 ^ 64 - 1 := rfl
  constructor
  · intro h
    unfold ofNumeral at h
    split at h
    · rename_i i hvalue
      obtain ⟨hintegral, -, -, rfl⟩ :=
        Numeral.integer?_eq_some_iff.1 (Numeral.value_eq_integer_iff.1 hvalue)
      split at h
      · rename_i w hword
        obtain ⟨⟨hlow, hhigh⟩, hsame⟩ := Option.ite_none_right_eq_some.1 hword
        cases hsame
        cases h
        exact ⟨⟨hintegral, hlow, hhigh⟩, rfl⟩
      · cases h
    · cases h
    · cases h
  · rintro ⟨h, rfl⟩
    have hinteger : n.integer? = some n.toInt := by
      have hlow := h.least
      have hhigh := h.greatest
      exact Numeral.integer?_eq_some_iff.2 ⟨h.toIsIntegral, by omega, by omega, rfl⟩
    have hword : Number.Word.ofInt? n.toInt = some (Int64.ofInt n.toInt) :=
      if_pos ⟨h.least, h.greatest⟩
    rw [ofNumeral, Numeral.value_eq_integer_iff.2 hinteger]
    simp only [hword]

/-! ## The value of a document -/

theorem toInt_ofInt_toInt {n : Numeral} (h : n.IsWord) : (Int64.ofInt n.toInt).toInt = n.toInt :=
  Int64.toInt_ofInt_of_le h.least (Int.lt_of_le_sub_one h.greatest)

mutual
/-- The value is what the document says. -/
inductive Mirrors : Document → Value → Prop where
  | null : Mirrors .null .empty
  | bool {b : Bool} : Mirrors (.bool b) (.int (if b then 1 else 0))
  | number {n : Numeral} {w : Int64} (hword : n.IsWord) (h : w.toInt = n.toInt) :
      Mirrors (.number n) (.int w)
  | text {s : String} : Mirrors (.text (some s)) (.text s)
  | array {items : List Document} {vs : List Value} (h : MirrorsItems items vs) :
      Mirrors (.array items .closed) (.list vs)
  /-- The entries are in order, and each has the value that comes last for its key. -/
  | object {members : List (Option String × Document)} {values : List (String × Value)}
      {entries : KeyMap Value} (h : MirrorsMembers members values) (hordered : KeyMap.Ordered entries)
      (hlast : ∀ key, KeyMap.find? entries key = KeyMap.find? values.reverse key) :
      Mirrors (.object members .closed) (.map entries)

inductive MirrorsItems : List Document → List Value → Prop where
  | nil : MirrorsItems [] []
  | cons {d : Document} {v : Value} {items : List Document} {vs : List Value} (h : Mirrors d v)
      (hmore : MirrorsItems items vs) : MirrorsItems (d :: items) (v :: vs)

inductive MirrorsMembers : List (Option String × Document) → List (String × Value) → Prop where
  | nil : MirrorsMembers [] []
  | cons {key : String} {d : Document} {v : Value} {members : List (Option String × Document)}
      {values : List (String × Value)} (h : Mirrors d v) (hmore : MirrorsMembers members values) :
      MirrorsMembers ((some key, d) :: members) ((key, v) :: values)
end

mutual
theorem Mirrors.ofDocument_eq {d : Document} {v : Value} : Mirrors d v → ofDocument d = .ok v
  | .null => rfl
  | .bool (b := b) => by cases b <;> rfl
  | .number hword h => by
    rw [ofDocument, ofNumeral_eq_ok_iff.2 ⟨hword, rfl⟩, ← h, Int64.ofInt_toInt]
  | .text => rfl
  | .array h => by
    rw [ofDocument, h.ofDocuments_eq]
    rfl
  | @Mirrors.object _ values _ h hordered hlast => by
    have hentries : KeyMap.ofList values = _ :=
      (KeyMap.ordered_ofList values).ext hordered fun key =>
        (KeyMap.find?_ofList values key).trans (hlast key).symm
    rw [ofDocument, h.ofMembers_eq, ← hentries]
    rfl

theorem MirrorsItems.ofDocuments_eq {items : List Document} {vs : List Value} :
    MirrorsItems items vs → ofDocuments items = .ok vs
  | .nil => rfl
  | .cons h hmore => by
    rw [ofDocuments, h.ofDocument_eq, hmore.ofDocuments_eq]
    rfl

theorem MirrorsMembers.ofMembers_eq {members : List (Option String × Document)}
    {values : List (String × Value)} : MirrorsMembers members values → ofMembers members = .ok values
  | .nil => rfl
  | .cons h hmore => by
    rw [ofMembers, h.ofDocument_eq, hmore.ofMembers_eq]
    rfl
end

mutual
theorem mirrors_of_ofDocument : ∀ {d : Document} {v : Value}, ofDocument d = .ok v → Mirrors d v
  | .null, _, h => by
    cases h
    exact .null
  | .bool b, _, h => by
    cases h
    cases b
    · exact .bool
    · exact .bool
  | .number n, _, h => by
    obtain ⟨hword, rfl⟩ := ofNumeral_eq_ok_iff.1 h
    exact .number hword (toInt_ofInt_toInt hword)
  | .text (some s), _, h => by
    cases h
    exact .text
  | .text none, _, h => by cases h
  | .array items ending, _, h => by
    rw [ofDocument] at h
    cases hitems : ofDocuments items with
    | error p =>
      rw [hitems] at h
      cases h
    | ok vs =>
      rw [hitems] at h
      cases ending with
      | stopped => cases h
      | closed =>
        cases h
        exact .array (mirrorsItems_of_ofDocuments hitems)
  | .object members ending, _, h => by
    rw [ofDocument] at h
    cases hmembers : ofMembers members with
    | error p =>
      rw [hmembers] at h
      cases h
    | ok values =>
      rw [hmembers] at h
      cases ending with
      | stopped => cases h
      | closed =>
        cases h
        exact .object (mirrorsMembers_of_ofMembers hmembers) (KeyMap.ordered_ofList values)
          (KeyMap.find?_ofList values)
  | .broken, _, h => by cases h

theorem mirrorsItems_of_ofDocuments : ∀ {items : List Document} {vs : List Value},
    ofDocuments items = .ok vs → MirrorsItems items vs
  | [], _, h => by
    cases h
    exact .nil
  | d :: items, _, h => by
    rw [ofDocuments] at h
    cases hd : ofDocument d with
    | error p =>
      rw [hd] at h
      cases h
    | ok v =>
      cases hitems : ofDocuments items with
      | error p =>
        rw [hd, hitems] at h
        cases h
      | ok vs =>
        rw [hd, hitems] at h
        cases h
        exact .cons (mirrors_of_ofDocument hd) (mirrorsItems_of_ofDocuments hitems)

theorem mirrorsMembers_of_ofMembers : ∀ {members : List (Option String × Document)}
    {values : List (String × Value)}, ofMembers members = .ok values → MirrorsMembers members values
  | [], _, h => by
    cases h
    exact .nil
  | (some key, d) :: members, _, h => by
    rw [ofMembers] at h
    cases hd : ofDocument d with
    | error p =>
      rw [hd] at h
      cases h
    | ok v =>
      cases hmembers : ofMembers members with
      | error p =>
        rw [hd, hmembers] at h
        cases h
      | ok values =>
        rw [hd, hmembers] at h
        cases h
        exact .cons (mirrors_of_ofDocument hd) (mirrorsMembers_of_ofMembers hmembers)
  | (none, d) :: members, _, h => by cases h
end

/-- **The value of a document is the one that mirrors it**, and there is none where none does. -/
theorem ofDocument_eq_ok_iff {d : Document} {v : Value} : ofDocument d = .ok v ↔ Mirrors d v :=
  ⟨mirrors_of_ofDocument, Mirrors.ofDocument_eq⟩

/-! ## Documents that have a value -/

mutual
theorem Mirrors.joined {d : Document} {v : Value} : Mirrors d v → d.Joined
  | .null | .bool | .number _ _ => trivial
  | .text => rfl
  | .array h => h.joined
  | .object h _ _ => h.joined

theorem MirrorsItems.joined {items : List Document} {vs : List Value} :
    MirrorsItems items vs → Document.JoinedItems items
  | .nil => trivial
  | .cons h hmore => ⟨h.joined, hmore.joined⟩

theorem MirrorsMembers.joined {members : List (Option String × Document)}
    {values : List (String × Value)} : MirrorsMembers members values → Document.JoinedMembers members
  | .nil => trivial
  | .cons h hmore => ⟨rfl, h.joined, hmore.joined⟩
end

mutual
theorem Mirrors.isWord {d : Document} {v : Value} : Mirrors d v → ∀ n ∈ d.numerals, n.IsWord
  | .null | .bool | .text => nofun
  | .number hword _ => fun _ hn => List.mem_singleton.1 hn ▸ hword
  | .array h => h.isWord
  | .object h _ _ => h.isWord

theorem MirrorsItems.isWord {items : List Document} {vs : List Value} :
    MirrorsItems items vs → ∀ n ∈ Document.itemNumerals items, n.IsWord
  | .nil => nofun
  | .cons h hmore => fun n hn => (List.mem_append.1 hn).elim (h.isWord n) (hmore.isWord n)

theorem MirrorsMembers.isWord {members : List (Option String × Document)}
    {values : List (String × Value)} :
    MirrorsMembers members values → ∀ n ∈ Document.memberNumerals members, n.IsWord
  | .nil => nofun
  | .cons h hmore => fun n hn => (List.mem_append.1 hn).elim (h.isWord n) (hmore.isWord n)
end

mutual
theorem exists_mirrors {d : Document} {cs : List Char} : Json.ValueText d cs →
    (∀ n ∈ d.numerals, n.IsWord) → ∃ v, Mirrors d v
  | .null, _ => ⟨_, .null⟩
  | .true, _ => ⟨_, .bool⟩
  | .false, _ => ⟨_, .bool⟩
  | .number _, hwords => by
    have hword := hwords _ (.head _)
    exact ⟨_, .number hword (toInt_ofInt_toInt hword)⟩
  | .string _, _ => ⟨_, .text⟩
  | .emptyArray _, _ => ⟨_, .array .nil⟩
  | .emptyObject _, _ => ⟨_, .object .nil KeyMap.ordered_nil fun _ => rfl⟩
  | .array h, hwords => by
    obtain ⟨vs, hvs⟩ := exists_mirrorsItems h hwords
    exact ⟨_, .array hvs⟩
  | .object h, hwords => by
    obtain ⟨values, hvalues⟩ := exists_mirrorsMembers h hwords
    exact ⟨_, .object hvalues (KeyMap.ordered_ofList values) (KeyMap.find?_ofList values)⟩

theorem exists_mirrors_padded {d : Document} {cs : List Char} : Json.PaddedText d cs →
    (∀ n ∈ d.numerals, n.IsWord) → ∃ v, Mirrors d v
  | .mk _ h _, hwords => exists_mirrors h hwords

theorem exists_mirrorsItems {items : List Document} {cs : List Char} : Json.ItemsText items cs →
    (∀ n ∈ Document.itemNumerals items, n.IsWord) → ∃ vs, MirrorsItems items vs
  | .one h, hwords => by
    obtain ⟨v, hv⟩ := exists_mirrors_padded h fun n hn => hwords n (List.mem_append_left _ hn)
    exact ⟨_, .cons hv .nil⟩
  | .cons h hmore, hwords => by
    obtain ⟨v, hv⟩ := exists_mirrors_padded h fun n hn => hwords n (List.mem_append_left _ hn)
    obtain ⟨vs, hvs⟩ := exists_mirrorsItems hmore fun n hn => hwords n (List.mem_append_right _ hn)
    exact ⟨_, .cons hv hvs⟩

theorem exists_mirrorsMembers {members : List (Option String × Document)} {cs : List Char} :
    Json.MembersText members cs → (∀ n ∈ Document.memberNumerals members, n.IsWord) →
      ∃ values, MirrorsMembers members values
  | .one _ h, hwords => by
    obtain ⟨v, hv⟩ := exists_mirrors_padded h fun n hn => hwords n (List.mem_append_left _ hn)
    exact ⟨_, .cons hv .nil⟩
  | .cons _ h hmore, hwords => by
    obtain ⟨v, hv⟩ := exists_mirrors_padded h fun n hn => hwords n (List.mem_append_left _ hn)
    obtain ⟨values, hvalues⟩ :=
      exists_mirrorsMembers hmore fun n hn => hwords n (List.mem_append_right _ hn)
    exact ⟨_, .cons hv hvalues⟩
end

/-! ## Texts -/

theorem ofJson_eq_ok_iff_reading {text : String} {v : Value} : ofJson text = .ok v ↔
    ∃ d, Json.Reading.ofText Json.nestingLimit text = ⟨d, true⟩ ∧ ofDocument d = .ok v := by
  unfold ofJson Json.Reading.decode
  rcases Json.Reading.ofText Json.nestingLimit text with ⟨d, whole⟩
  cases hd : ofDocument d with
  | error p => exact iff_of_false nofun (by simp [hd])
  | ok w =>
    cases whole with
    | false => exact iff_of_false nofun (by simp)
    | true => simp [hd]

/-- A text is read as what mirrors the document that it is JSON for. -/
theorem ofJson_eq_ok_iff {text : String} {v : Value} :
    ofJson text = .ok v ↔ ∃ d, Json.Spells d text ∧ d.nesting < 128 ∧ Mirrors d v := by
  simp only [ofJson_eq_ok_iff_reading, ofDocument_eq_ok_iff]
  constructor
  · rintro ⟨d, hread, hmirrors⟩
    obtain ⟨hspells, hnesting⟩ := Json.Reading.ofText_eq_iff.1 ⟨hread, hmirrors.joined⟩
    exact ⟨d, hspells, Nat.lt_succ_of_le hnesting, hmirrors⟩
  · rintro ⟨d, hspells, hnesting, hmirrors⟩
    have hread := Json.Reading.ofText_eq_iff.2 ⟨hspells, Nat.le_of_lt_succ hnesting⟩
    exact ⟨d, hread.1, hmirrors⟩

/-- **Exactly the texts that are JSON with word numbers, and nest less than 128 deep, are read as
values**, and each as the one value that mirrors its document. -/
theorem ofJson_reads_integer_documents (text : String) :
    ((∃ v, ofJson text = .ok v) ↔
      ∃ d, Json.Spells d text ∧ d.nesting < 128 ∧ ∀ n ∈ d.numerals, n.IsWord) ∧
    ∀ d v, Json.Spells d text → ofJson text = .ok v →
      Mirrors d v ∧ ∀ w, Mirrors d w → w = v := by
  constructor
  · constructor
    · rintro ⟨v, hv⟩
      obtain ⟨d, hspells, hnesting, hmirrors⟩ := ofJson_eq_ok_iff.1 hv
      exact ⟨d, hspells, hnesting, hmirrors.isWord⟩
    · rintro ⟨d, hspells, hnesting, hwords⟩
      obtain ⟨v, hv⟩ := exists_mirrors_padded hspells hwords
      exact ⟨v, ofJson_eq_ok_iff.2 ⟨d, hspells, hnesting, hv⟩⟩
  · intro d v hspells hv
    obtain ⟨d', hspells', -, hmirrors⟩ := ofJson_eq_ok_iff.1 hv
    obtain rfl := hspells.eq hspells'
    refine ⟨hmirrors, fun w hw => ?_⟩
    exact Except.ok.inj (hw.ofDocument_eq.symm.trans hmirrors.ofDocument_eq)

/-- Two members with one key, of which the second is written with an escape and has the least word.
-/
theorem ofJson_reads_repeated_key :
    let text := "\x7b\"a\":0, \"\\u0061\":[-9223372036854775808,true]\x7d"
    let least : Numeral := ⟨true, "9223372036854775808".toList, [], false, []⟩
    let d : Document := .object [(some "a", .number ⟨false, ['0'], [], false, []⟩),
      (some "a", .array [.number least, .bool true] .closed)] .closed
    Json.Spells d text ∧ d.nesting < 128 ∧ (∀ n ∈ d.numerals, n.IsWord) ∧
      ofJson text = .ok (.map [("a", .list [.int Int64.minValue, .int 1])]) := by
  intro text least d
  have hplain : Json.CharsText "a".toList ['a'] :=
    .cons (.plain ⟨by decide, by decide, by decide⟩) .nil
  have hunits : Json.UnitEscapes (Json.utf16 'a') ['\\', 'u', '0', '0', '6', '1'] :=
    show Json.UnitEscapes [0x61] _ from .cons (by decide) .nil
  have hescaped : Json.CharsText "a".toList ['\\', 'u', '0', '0', '6', '1'] :=
    .cons (.units hunits) .nil
  have hzero : Json.ValueText (.number ⟨false, ['0'], [], false, []⟩) ['0'] :=
    .number (Numeral.spells_chars
      ⟨List.all_eq_true.1 rfl, by decide, by decide, nofun, nofun, by decide⟩)
  have hleast : Json.ValueText (.number least) ('-' :: least.whole) :=
    .number (Numeral.spells_chars
      ⟨List.all_eq_true.1 rfl, by decide, by decide, nofun, nofun, by decide⟩)
  have harray := Json.ValueText.array (.cons hleast.padded (.one Json.ValueText.true.padded))
  have hspace : Json.Spaces [' '] := List.all_eq_true.1 rfl
  have hnone : Json.Spaces [] := nofun
  have hobject := Json.ValueText.object (.cons (Json.ValueText.string hplain).padded hzero.padded
    (.one (.mk hspace (.string hescaped) hnone) harray.padded))
  have hspells : Json.Spells d text := by
    refine (congrArg (Json.PaddedText d) ?_).mp hobject.padded
    decide
  have hzeroWord : Numeral.IsWord ⟨false, ['0'], [], false, []⟩ :=
    ⟨⟨rfl, rfl, by decide⟩, by decide, by decide⟩
  have hleastWord : least.IsWord := ⟨⟨rfl, rfl, by decide⟩, by decide, by decide⟩
  have hwords : ∀ n ∈ d.numerals, n.IsWord := by
    have hall : ∀ n ∈ [⟨false, ['0'], [], false, []⟩, least], n.IsWord := by
      simp [hzeroWord, hleastWord]
    exact hall
  have hmirrors : Mirrors d (.map [("a", .list [.int Int64.minValue, .int 1])]) := by
    have hzeroValue : Mirrors (.number ⟨false, ['0'], [], false, []⟩) (.int 0) :=
      .number hzeroWord (by decide)
    have hleastValue : Mirrors (.number least) (.int Int64.minValue) := .number hleastWord (by decide)
    have hitems := MirrorsItems.cons hleastValue (.cons (.bool (b := true)) .nil)
    refine .object (.cons hzeroValue (.cons (.array hitems) .nil)) (List.pairwise_singleton _ _)
      fun key => ?_
    by_cases hkey : "a" = key <;> simp [KeyMap.find?, hkey]
  obtain ⟨hread, hunique⟩ := ofJson_reads_integer_documents text
  obtain ⟨v, hv⟩ := hread.2 ⟨d, hspells, by decide, hwords⟩
  refine ⟨hspells, by decide, hwords, ?_⟩
  rw [hv, (hunique d v hspells hv).2 _ hmirrors]

end Value

end TorrentControl

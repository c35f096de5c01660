import TorrentControl.Proofs.Statement.Reading
import TorrentControl.Proofs.Statement.Scanning

/-! # Statements are read back from their text

A value that is built from texts and lists can be written as arguments: texts in quotes, lists in
braces, and any blanks around each element. A statement that is written so is read back, and so are
the statements of a script that is made of such texts with semicolons between them. -/

namespace TorrentControl

namespace Arguments

open Text (isBlank)

/-! ## Writing -/

/-- A character as it is written between quotes. -/
def writeQuoted (c : Char) : List Char :=
  if c = '"' ∨ c = '\\' then ['\\', c] else [c]

mutual
/-- The text writes the value as one element. -/
def Writes : Value → List Char → Prop
  | .text s, cs => ∃ lead trail : Blanks,
    cs = lead.val ++ '"' :: (s.toList.flatMap writeQuoted ++ '"' :: trail.val)
  | .list items, cs => ∃ (lead trail : Blanks) (inner : List Char),
    cs = lead.val ++ '\x7b' :: (inner ++ '\x7d' :: trail.val) ∧ WritesItems items inner
  | _, _ => False

/-- The text writes the values with commas between them. -/
def WritesItems : List Value → List Char → Prop
  | [], cs => ∃ blanks : Blanks, cs = blanks.val
  | [v], cs => Writes v cs
  | v :: w :: rest, cs => ∃ first others, cs = first ++ ',' :: others ∧ Writes v first ∧
    WritesItems (w :: rest) others
end

/-! ## What is written has a derivation -/

/-- A character of a quoted text as it is written. -/
def QuotedChar.written (c : Char) : QuotedChar :=
  if h : c = '"' ∨ c = '\\' then .escaped c else .plain c (not_or.1 h)

theorem QuotedChar.chars_written (c : Char) : (written c).chars = writeQuoted c := by
  unfold written writeQuoted
  split <;> rfl

theorem QuotedChar.value_written (c : Char) : (written c).value = c := by
  unfold written
  split
  · rename_i h
    rcases h with rfl | rfl <;> rfl
  · rfl

theorem Writes.visible : ∀ {v : Value} {cs : List Char}, Writes v cs → Visible cs
  | .text s, _, ⟨lead, trail, h⟩ => ⟨'"', by simp [h], by decide⟩
  | .list items, _, ⟨lead, trail, inner, h, _⟩ => ⟨'\x7b', by simp [h], by decide⟩

theorem WritesItems.visible : ∀ {vs : List Value} {cs : List Char}, vs ≠ [] → WritesItems vs cs →
    Visible cs
  | [v], _, _, h => Writes.visible (v := v) h
  | _ :: _ :: _, _, _, ⟨first, others, h, _⟩ => ⟨',', by simp [h], by decide⟩

/-- The derivation of the text between braces, given one of the elements if there are any. -/
theorem WritesItems.inner {vs : List Value} {cs : List Char} (h : WritesItems vs cs)
    (derived : vs ≠ [] → ∃ es : Elements, es.Proper ∧ es.Tidy ∧ es.values = vs ∧ es.chars = cs) :
    ∃ i : Inner, i.Proper ∧ i.Tidy ∧ i.values = vs ∧ i.chars = cs := by
  by_cases hvs : vs = []
  · obtain ⟨blanks, rfl⟩ : ∃ blanks : Blanks, cs = blanks.val := by rwa [hvs] at h
    exact ⟨.none blanks, trivial, trivial, hvs.symm, rfl⟩
  · obtain ⟨es, hproper, htidy, hvalues, rfl⟩ := derived hvs
    exact ⟨.some es, ⟨h.visible hvs, hproper⟩, htidy, hvalues, rfl⟩

mutual
theorem Writes.derived : ∀ {v : Value} {cs : List Char}, Writes v cs →
    ∃ e : Element, e.Proper ∧ e.Tidy ∧ e.value = v ∧ e.chars = cs
  | .text s, _, ⟨lead, trail, h⟩ => by
    refine ⟨.quoted lead (s.toList.map .written) trail, trivial, trivial, ?_, ?_⟩
    · simp [Element.value, Function.comp_def, QuotedChar.value_written]
    · simp [h, Element.chars, List.flatMap_map, QuotedChar.chars_written]
  | .list items, _, ⟨lead, trail, inner, h, hinner⟩ => by
    obtain ⟨i, hproper, htidy, rfl, rfl⟩ := hinner.inner fun hne => WritesItems.derived hne hinner
    exact ⟨.braces lead i trail, hproper, htidy, rfl, h.symm⟩

theorem WritesItems.derived : ∀ {vs : List Value} {cs : List Char}, vs ≠ [] → WritesItems vs cs →
    ∃ es : Elements, es.Proper ∧ es.Tidy ∧ es.values = vs ∧ es.chars = cs
  | [v], _, _, h => by
    obtain ⟨e, hproper, htidy, rfl, rfl⟩ := Writes.derived (v := v) h
    exact ⟨.one e, hproper, htidy, rfl, rfl⟩
  | v :: w :: rest, _, _, ⟨first, others, h, hfirst, hothers⟩ => by
    obtain ⟨e, hproper, htidy, rfl, rfl⟩ := Writes.derived hfirst
    obtain ⟨es, hproper', htidy', hvalues, rfl⟩ := WritesItems.derived (by simp) hothers
    exact ⟨.more e es, ⟨hproper, hproper'⟩, ⟨htidy, htidy'⟩, by rw [Elements.values, hvalues],
      h.symm⟩
end

mutual
/-- Every value that is built from texts and lists can be written. -/
theorem exists_writes : ∀ {v : Value}, v.OfTexts → ∃ cs, Writes v cs
  | .text s, _ => ⟨_, .front [], .front [], rfl⟩
  | .list items, h => by
    obtain ⟨inner, hinner⟩ := exists_writesItems h
    exact ⟨_, .front [], .front [], inner, rfl, hinner⟩

theorem exists_writesItems : ∀ {vs : List Value}, Value.OfTextsItems vs → ∃ cs, WritesItems vs cs
  | [], _ => ⟨_, .front [], rfl⟩
  | [v], h => exists_writes (v := v) h.1
  | v :: w :: rest, h => by
    obtain ⟨first, hfirst⟩ := exists_writes h.1
    obtain ⟨others, hothers⟩ := exists_writesItems h.2
    exact ⟨_, first, others, rfl, hfirst, hothers⟩
end

mutual
theorem Writes.ofTexts : ∀ {v : Value} {cs : List Char}, Writes v cs → v.OfTexts
  | .text _, _, _ => trivial
  | .list _, _, ⟨_, _, _, _, hinner⟩ => WritesItems.ofTexts hinner

theorem WritesItems.ofTexts : ∀ {vs : List Value} {cs : List Char}, WritesItems vs cs →
    Value.OfTextsItems vs
  | [], _, _ => trivial
  | [v], _, h => ⟨Writes.ofTexts (v := v) h, trivial⟩
  | _ :: _ :: _, _, ⟨_, _, _, hfirst, hothers⟩ =>
    ⟨Writes.ofTexts hfirst, WritesItems.ofTexts hothers⟩
end

/-- One element, or several, are read as what they write. -/
theorem parse_writesItems {vs : List Value} {cs : List Char} (hvs : vs ≠ [])
    (h : WritesItems vs cs) : parse (String.ofList cs) = .ok (collect vs) := by
  obtain ⟨es, hproper, -, hvalues, hchars⟩ := h.derived hvs
  have hvisible := isBlankText_of_visible (h.visible hvs)
  refine (parse_ok_iff hvisible).2 ⟨⟨es, hproper, by rw [hchars, String.toList_ofList]⟩, ?_⟩
  rw [Derivation.value, hvalues]

end Arguments

/-! ## Statements -/

namespace Statement

open Arguments

/-- A text that can stand in front of the equals sign as it is. -/
structure IsKey (key : String) : Prop where
  nonempty : key ≠ ""
  visible : ∀ c ∈ key.toList, Text.isBlank c = false
  unmarked : ∀ c ∈ key.toList, c ∉ ['=', '"', '\x7b', '\x7d', ',', ';']

instance (key : String) : Decidable (IsKey key) :=
  decidable_of_iff (key ≠ "" ∧ (key.toList.all fun c => !Text.isBlank c) = true ∧
      (key.toList.all fun c => !(['=', '"', '\x7b', '\x7d', ',', ';'].contains c)) = true) <| by
    simp only [List.all_eq_true, Bool.not_eq_true', List.contains_eq_mem, decide_eq_false_iff_not]
    exact ⟨fun h => ⟨h.1, h.2.1, h.2.2⟩, fun h => ⟨h.nonempty, h.visible, h.unmarked⟩⟩

/-- A key is what can stand in front of the equals sign, without blanks around it. -/
theorem isKey_iff {key : String} : IsKey key ↔
    HoldsKey key.toList ∧ Text.trimChars key.toList = key.toList ∧ '=' ∉ key.toList := by
  constructor
  · intro h
    have htrim : Text.trimChars key.toList = key.toList := Text.trimChars_of_none h.visible
    refine ⟨⟨?_, ?_⟩, htrim, fun hmem => h.unmarked _ hmem (by simp)⟩
    · rw [htrim]
      simpa using h.nonempty
    · rw [htrim, List.any_eq_false]
      intro c hc
      have hblank := h.visible c hc
      have hmark := h.unmarked c hc
      simp only [List.mem_cons, List.not_mem_nil, or_false, not_or] at hmark
      simp [isForbidden, hblank, hmark]
  · rintro ⟨⟨hnonempty, hallowed⟩, htrim, hequals⟩
    rw [htrim] at hnonempty hallowed
    have allowed (c : Char) (hc : c ∈ key.toList) := List.any_eq_false.1 hallowed c hc
    simp only [isForbidden, Bool.or_eq_true, beq_iff_eq, not_or] at allowed
    refine ⟨by simpa using hnonempty, fun c hc => by simpa using (allowed c hc).1.1.1.1.1,
      fun c hc => ?_⟩
    simp only [List.mem_cons, List.not_mem_nil, or_false, not_or]
    exact ⟨fun h => hequals (h ▸ hc), (allowed c hc).1.1.1.1.2, (allowed c hc).1.1.1.2,
      (allowed c hc).1.1.2, (allowed c hc).1.2, (allowed c hc).2⟩

theorem IsKey.parse {key : String} (h : IsKey key) {args : List Char} {v : Value}
    (hargs : Arguments.parse (String.ofList args) = .ok v) :
    parse (key ++ "=" ++ String.ofList args) = .ok ⟨key, v⟩ := by
  obtain ⟨hholds, htrim, hequals⟩ := isKey_iff.1 h
  refine parse_ok_iff.2 ⟨key.toList, some args, ?_, hholds, ?_, hargs⟩
  · simpa using Text.splitFirst_append hequals args
  · rw [htrim, String.ofList_toList]

/-- **A text is read as a call of itself exactly if it is a key**, and then without arguments. -/
theorem parse_self_iff {key : String} {args : Value} :
    Statement.parse key = .ok ⟨key, args⟩ ↔ IsKey key ∧ args = .empty := by
  rw [parse_ok_iff, isKey_iff]
  constructor
  · rintro ⟨head, tail, hsplit, hholds, hkey, hargs⟩
    have hchars : key.toList = Text.trimChars head :=
      (congrArg String.toList hkey).trans String.toList_ofList
    rcases Text.splitFirst_cases '=' key.toList with hequals | ⟨before, after, hbefore, hequals⟩
    · cases (Text.splitFirst_of_not_mem hequals).symm.trans hsplit
      exact ⟨⟨hholds, hchars.symm, hequals⟩, (Except.ok.inj hargs).symm⟩
    · -- the key would be shorter than the text in front of its own equals sign
      rw [hbefore, Text.splitFirst_append hequals] at hsplit
      obtain ⟨rfl, -⟩ := Prod.mk.inj hsplit
      have hlength := Text.trimChars_length_le before
      rw [← hchars, hbefore, List.length_append, List.length_cons] at hlength
      omega
  · rintro ⟨⟨hholds, htrim, hequals⟩, rfl⟩
    exact ⟨key.toList, none, Text.splitFirst_of_not_mem hequals, hholds,
      by rw [htrim, String.ofList_toList], rfl⟩

theorem IsKey.isPlain {key : String} (h : IsKey key) : ∀ c ∈ key.toList, Script.isPlain c = true := by
  intro c hc
  have hmark := h.unmarked c hc
  simp only [List.mem_cons, List.not_mem_nil, or_false, not_or] at hmark
  simp [Script.isPlain, hmark]

/-- The text writes the statement: a key, an equals sign, and its value. A list of several values
needs no braces. -/
inductive Expresses : String → Statement → Prop where
  | whole {key : String} {v : Value} {cs : List Char} (hkey : IsKey key) (h : Writes v cs) :
    Expresses (key ++ "=" ++ String.ofList cs) ⟨key, v⟩
  | spread {key : String} {v w : Value} {rest : List Value} {cs : List Char} (hkey : IsKey key)
    (h : WritesItems (v :: w :: rest) cs) :
    Expresses (key ++ "=" ++ String.ofList cs) ⟨key, .list (v :: w :: rest)⟩

theorem Expresses.ofTexts {text : String} {statement : Statement} (h : Expresses text statement) :
    statement.args.OfTexts := by
  cases h with
  | whole _ h => exact h.ofTexts
  | spread _ h => exact WritesItems.ofTexts h

/-- **A statement is read back from its text.** -/
theorem Expresses.parse {text : String} {statement : Statement} (h : Expresses text statement) :
    parse text = .ok statement := by
  cases h with
  | @whole key v cs hkey h =>
    exact hkey.parse (parse_writesItems (List.cons_ne_nil v []) h)
  | spread hkey h =>
    exact hkey.parse (parse_writesItems (List.cons_ne_nil _ _) h)

theorem Expresses.passes {text : String} {statement : Statement} (h : Expresses text statement) :
    Script.Passes 0 .plain text.toList 0 .plain := by
  have written {key : String} {vs : List Value} {cs : List Char} (hkey : IsKey key) (hvs : vs ≠ [])
      (h : WritesItems vs cs) :
      Script.Passes 0 .plain (key ++ "=" ++ String.ofList cs).toList 0 .plain := by
    obtain ⟨es, -, htidy, -, rfl⟩ := h.derived hvs
    have hpasses := ((Script.passes_plain hkey.isPlain).append
      (Script.passes_plainChar (c := '=') rfl)).append (Elements.passes 0 htidy)
    simpa using hpasses
  cases h with
  | @whole key v cs hkey h => exact written hkey (List.cons_ne_nil v []) h
  | spread hkey h => exact written hkey (List.cons_ne_nil _ _) h

end Statement

/-! ## Scripts -/

namespace Script

open Statement (Expresses IsKey)

theorem cut_joined : ∀ {texts : List (List Char)}, texts ≠ [] →
    (∀ text ∈ texts, Passes 0 .plain text 0 .plain) →
      cut 0 .plain ([';'].intercalate texts) = .ok texts
  | [text], _, h => by
    rw [List.intercalate_singleton]
    exact cut_of_passes (h text (.head _))
  | text :: next :: texts, _, h => by
    have hrest := cut_joined (by simp) fun u hu => h u (.tail text hu)
    have hend (rest : List Char) : cut 0 .plain (';' :: rest) = ([] :: ·) <$> cut 0 .plain rest := rfl
    rw [List.intercalate_cons_cons, List.append_assoc, h text (.head _), List.singleton_append, hend,
      hrest]
    exact congrArg Except.ok ((attachAll_cons ..).trans (by rw [List.append_nil]))

/-- **A script is cut into the statements that it is made of**, each of them trimmed. -/
theorem split_intercalate {texts : List String} (hne : texts ≠ [])
    (h : ∀ text ∈ texts, ∃ statement, Expresses text statement) :
    split (";".intercalate texts) = .ok (texts.map Text.trim) := by
  have hpasses : ∀ cs ∈ texts.map String.toList, Passes 0 .plain cs 0 .plain := by
    intro cs hcs
    obtain ⟨text, htext, rfl⟩ := List.mem_map.1 hcs
    obtain ⟨statement, hstatement⟩ := h text htext
    exact hstatement.passes
  have hcut := cut_joined (by simpa using hne) hpasses
  have hchars : (";".intercalate texts).toList = [';'].intercalate (texts.map String.toList) :=
    String.toList_intercalate
  rw [split, hchars, hcut]
  exact congrArg Except.ok (by rw [List.map_map]; rfl)

/-- **Statements come through their text.** The values that can be written behind a key are those
built from texts and lists, every such text is read as the statement that it writes, and a script of
several is cut into them. -/
theorem statements_read_back :
    (∀ key v, IsKey key → (v.OfTexts ↔ ∃ text, Expresses text ⟨key, v⟩)) ∧
    (∀ text statement, Expresses text statement → Statement.parse text = .ok statement) ∧
    ∀ texts : List String, texts ≠ [] → (∀ text ∈ texts, ∃ statement, Expresses text statement) →
      split (";".intercalate texts) = .ok (texts.map Text.trim) := by
  refine ⟨fun key v hkey => ⟨fun hv => ?_, ?_⟩, fun _ _ h => h.parse,
    fun _ hne h => split_intercalate hne h⟩
  · obtain ⟨cs, hcs⟩ := Arguments.exists_writes hv
    exact ⟨_, .whole hkey hcs⟩
  · rintro ⟨text, h⟩
    exact h.ofTexts

/-- Quotes, braces, semicolons and backslashes within texts do not cut a script. -/
theorem marked_statements_read_back :
    split "print=\"\x7d;\\\"\\\\\";x= \x7b \"a;\" ,\x7b\x7d\x7d " =
      .ok ["print=\"\x7d;\\\"\\\\\"", "x= \x7b \"a;\" ,\x7b\x7d\x7d"] := by
  have print : Arguments.Writes (.text "\x7d;\"\\") "\"\x7d;\\\"\\\\\"".toList :=
    ⟨.none, .none, rfl⟩
  have inner : Arguments.WritesItems [.text "a;", .list []] " \"a;\" ,\x7b\x7d".toList :=
    ⟨" \"a;\" ".toList, "\x7b\x7d".toList, rfl, ⟨.front [' '], .front [' '], rfl⟩,
      ⟨.none, .none, _, rfl, .none, rfl⟩⟩
  have list : Arguments.Writes (.list [.text "a;", .list []])
      " \x7b \"a;\" ,\x7b\x7d\x7d ".toList :=
    ⟨.front [' '], .front [' '], _, rfl, inner⟩
  have hprint : IsKey "print" := by decide +kernel
  have hx : IsKey "x" := by decide +kernel
  refine statements_read_back.2.2
    ["print=\"\x7d;\\\"\\\\\"", "x= \x7b \"a;\" ,\x7b\x7d\x7d "] (by simp) ?_
  simp only [List.mem_cons, List.not_mem_nil, or_false]
  rintro _ (rfl | rfl)
  · exact ⟨_, Expresses.whole hprint print⟩
  · exact ⟨_, Expresses.whole hx list⟩

/-- No statements join to the empty text, which is cut into one empty statement. -/
theorem no_statements_read_back :
    ¬ ∀ texts : List String, (∀ text ∈ texts, ∃ statement, Expresses text statement) →
      split (";".intercalate texts) = .ok (texts.map Text.trim) := by
  intro h
  have hempty : split (";".intercalate []) = .ok [""] := rfl
  have hnone := h [] (by simp)
  rw [hempty] at hnone
  cases hnone

end Script

end TorrentControl

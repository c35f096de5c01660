import TorrentControl.Proofs.Statement.Reading

/-! # Trimmed statements

A statement is read from its text as it is from the trimmed text. The blanks that trimming takes away
belong to the key or to the last element of the arguments. -/

namespace TorrentControl

namespace Arguments

open Text (isBlank trimChars dropEndWhile)

theorem BareRun.head_visible {run : BareRun} {c : Char} {cs : List Char} (h : run.val = c :: cs) :
    isBlank c = false := by
  have hstart := run.property.2 c (by rw [h]; rfl)
  simp only [startsOtherwise, Bool.or_eq_false_iff] at hstart
  exact hstart.1.1

/-- The run without the blanks at its end. -/
def BareRun.trimEnd (run : BareRun) : BareRun :=
  ⟨dropEndWhile isBlank run.val,
    fun c hc => run.property.1 c (Text.mem_of_mem_dropEndWhile hc), by
    cases hrun : run.val with
    | nil => exact .nil
    | cons c cs =>
      rw [Text.dropEndWhile_cons_of_neg (BareRun.head_visible hrun)]
      exact .cons (run.property.2 c (by rw [hrun]; rfl))⟩

theorem BareRun.trimEnd_of_cons {run : BareRun} {c : Char} {cs : List Char} (h : run.val = c :: cs) :
    run.trimEnd.val = c :: dropEndWhile isBlank cs := by
  rw [← Text.dropEndWhile_cons_of_neg (head_visible h), ← h]
  rfl

/-- The element without the blanks at its end. -/
def Element.trimEnd : Element → Element
  | .quoted lead text _ => .quoted lead text .none
  | .braces lead inner _ => .braces lead inner .none
  | .bare lead run => if run.val = [] then .bare .none run else .bare lead run.trimEnd

def Elements.trimEnd : Elements → Elements
  | .one e => .one e.trimEnd
  | .more e rest => .more e rest.trimEnd

/-- Behind a character that stays only blanks go. -/
theorem dropEndWhile_blanks (before : List Char) {c : Char} (hc : isBlank c = false)
    (trail : Blanks) : dropEndWhile isBlank (before ++ c :: trail.val) = before ++ [c] := by
  rw [Text.dropEndWhile_append_cons before hc, Text.dropEndWhile_of_all trail.property]

theorem Element.chars_trimEnd (e : Element) : e.trimEnd.chars = dropEndWhile isBlank e.chars := by
  cases e with
  | quoted lead text trail =>
    have h := dropEndWhile_blanks (lead.val ++ '"' :: text.flatMap QuotedChar.chars)
      (show isBlank '"' = false by decide) trail
    simpa [trimEnd, chars, Blanks.none] using h.symm
  | braces lead inner trail =>
    have h := dropEndWhile_blanks (lead.val ++ '\x7b' :: inner.chars)
      (show isBlank '\x7d' = false by decide) trail
    simpa [trimEnd, chars, Blanks.none] using h.symm
  | bare lead run =>
    rw [trimEnd]
    split
    · rename_i hrun
      rw [chars, chars, hrun, List.append_nil, List.append_nil,
        Text.dropEndWhile_of_all lead.property]
      rfl
    · rename_i hrun
      obtain ⟨c, cs, hcons⟩ := List.exists_cons_of_ne_nil hrun
      have hc := BareRun.head_visible hcons
      rw [chars, chars, BareRun.trimEnd_of_cons hcons, hcons, Text.dropEndWhile_append_cons _ hc]

theorem Element.value_trimEnd (e : Element) : e.trimEnd.value = e.value := by
  cases e with
  | quoted | braces => rfl
  | bare lead run =>
    rw [trimEnd]
    split
    · rfl
    · rename_i hrun
      obtain ⟨c, cs, hcons⟩ := List.exists_cons_of_ne_nil hrun
      have hc := BareRun.head_visible hcons
      rw [value, value, BareRun.trimEnd_of_cons hcons, hcons, Text.trimChars_cons_of_visible hc,
        Text.trimChars_cons_of_visible hc, Text.dropEndWhile_idem]

theorem Element.proper_trimEnd {e : Element} (h : e.Proper) : e.trimEnd.Proper := by
  cases e with
  | quoted | braces => exact h
  | bare lead run =>
    rw [trimEnd]
    split <;> exact h

/-- Only the last of several elements loses blanks, and none of them its value. -/
theorem Elements.trims : ∀ {es : Elements}, es.Proper → es.trimEnd.Proper ∧
    es.trimEnd.chars = dropEndWhile isBlank es.chars ∧ es.trimEnd.values = es.values
  | .one e, h => ⟨e.proper_trimEnd h, e.chars_trimEnd, congrArg ([·]) e.value_trimEnd⟩
  | .more e rest, h => by
    obtain ⟨hproper, hchars, hvalues⟩ := trims h.2
    have hcomma : isBlank ',' = false := by decide
    refine ⟨⟨h.1, hproper⟩, ?_, congrArg (e.value :: ·) hvalues⟩
    rw [trimEnd, chars, chars, Text.dropEndWhile_append_cons _ hcomma, hchars]

/-- Arguments are read without the blanks at their end as they are with them. -/
theorem parse_trimEnd {args : List Char} {v : Value} (h : parse (String.ofList args) = .ok v) :
    parse (String.ofList (dropEndWhile isBlank args)) = .ok v := by
  by_cases hblank : ∀ c ∈ args, isBlank c = true
  · rw [Text.dropEndWhile_of_all hblank]
    rw [parse, if_pos (by simpa [Text.isBlankText] using hblank)] at h
    exact h
  · simp only [not_forall, Bool.not_eq_true] at hblank
    obtain ⟨c, hc, hvisible⟩ := hblank
    obtain ⟨d, rfl⟩ := (parse_ok_iff (isBlankText_of_visible ⟨c, hc, hvisible⟩)).1 h
    have hkept := isBlankText_of_visible ⟨c, Text.mem_dropEndWhile hc hvisible, hvisible⟩
    obtain ⟨hproper, hchars, hvalues⟩ := Elements.trims d.proper
    have hspells : d.elements.trimEnd.chars =
        (String.ofList (dropEndWhile isBlank args)).toList := by
      rw [hchars, d.spells, String.toList_ofList, String.toList_ofList]
    exact (parse_ok_iff hkept).2 ⟨⟨_, hproper, hspells⟩, congrArg collect hvalues⟩

end Arguments

namespace Statement

open Text (isBlank trimChars dropEndWhile)

theorem HoldsKey.of_trim_eq {head head' : List Char} (h : HoldsKey head)
    (heq : trimChars head' = trimChars head) : HoldsKey head' :=
  ⟨heq ▸ h.nonempty, heq ▸ h.allowed⟩

/-- **A statement is read from its trimmed text.** -/
theorem parse_trim {text : String} {statement : Statement} (h : parse text = .ok statement) :
    parse (Text.trim text) = .ok statement := by
  obtain ⟨head, tail, hsplit, hkey, hname, hargs⟩ := parse_ok_iff.1 h
  have hchars : (Text.trim text).toList = trimChars text.toList := String.toList_ofList
  have hequals : isBlank '=' = false := by decide
  rw [parse_ok_iff, hchars]
  rcases Text.splitFirst_cases '=' text.toList with hnone | ⟨before, after, htext, hbefore⟩
  · rw [Text.splitFirst_of_not_mem hnone] at hsplit
    cases hsplit
    have hnone' : '=' ∉ trimChars text.toList := fun hmem => hnone (Text.mem_of_mem_trimChars hmem)
    have hidem := Text.trimChars_idem text.toList
    exact ⟨_, none, Text.splitFirst_of_not_mem hnone', hkey.of_trim_eq hidem, by rw [hidem, hname],
      hargs⟩
  · rw [htext, Text.splitFirst_append hbefore] at hsplit
    obtain ⟨rfl, rfl⟩ := Prod.mk.inj hsplit
    have hbefore' : '=' ∉ before.dropWhile isBlank :=
      fun hmem => hbefore ((List.dropWhile_suffix _).subset hmem)
    have htrim := Text.trimChars_dropWhile before
    refine ⟨before.dropWhile isBlank, some (dropEndWhile isBlank after), ?_, hkey.of_trim_eq htrim,
      by rw [htrim, hname], Arguments.parse_trimEnd hargs⟩
    rw [htext, Text.trimChars_append_cons before hequals, Text.splitFirst_append hbefore']

end Statement

end TorrentControl

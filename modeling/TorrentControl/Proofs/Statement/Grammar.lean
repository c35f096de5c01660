import TorrentControl.Proofs.Json.Token
import TorrentControl.Statement

/-! # The grammar of arguments

The derivations of argument texts, as trees. What a tree is made of can only be what the grammar
allows at its place, with one thing left to say: braces with nothing but blanks between them are an
empty list, and not a list of one bare element. The blanks in front of an element are all of them, so
a bare element starts with none. Under these two readings a text has one derivation at most. -/

namespace TorrentControl

/-! ## Values of arguments -/

namespace Value

mutual
/-- The value is built from texts and lists. -/
def OfTexts : Value → Prop
  | .text _ => True
  | .list items => OfTextsItems items
  | _ => False

def OfTextsItems : List Value → Prop
  | [] => True
  | v :: rest => OfTexts v ∧ OfTextsItems rest
end

end Value

namespace Arguments

open Json (StopsAt)
open Text (isBlank trimChars)

/-! ## Derivations -/

/-- The blanks at one place. -/
abbrev Blanks := { cs : List Char // ∀ c ∈ cs, isBlank c = true }

def Blanks.none : Blanks :=
  ⟨[], by simp⟩

/-- A character of a quoted text. -/
inductive QuotedChar where
  | plain (c : Char) (h : c ≠ '"' ∧ c ≠ '\\')
  /-- A character behind a backslash. -/
  | escaped (c : Char)

/-- The characters that a bare element does not start with. -/
def startsOtherwise (c : Char) : Bool :=
  isBlank c || c == '"' || c == '\x7b'

abbrev BareRun := { cs : List Char // (∀ c ∈ cs, isBare c = true) ∧ StopsAt startsOtherwise cs }

mutual
inductive Element where
  | quoted (lead : Blanks) (text : List QuotedChar) (trail : Blanks)
  | braces (lead : Blanks) (inner : Inner) (trail : Blanks)
  | bare (lead : Blanks) (run : BareRun)

/-- What stands between braces. -/
inductive Inner where
  | none (blanks : Blanks)
  | some (elements : Elements)

/-- Elements with commas between them. -/
inductive Elements where
  | one (element : Element)
  | more (element : Element) (rest : Elements)
end

namespace QuotedChar

def chars : QuotedChar → List Char
  | .plain c _ => [c]
  | .escaped c => ['\\', c]

/-- The character that is meant. -/
def value : QuotedChar → Char
  | .plain c _ => c
  | .escaped c => unescape c

end QuotedChar

mutual
/-- The text that is derived. -/
def Element.chars : Element → List Char
  | .quoted lead text trail => lead.val ++ '"' :: (text.flatMap QuotedChar.chars ++ '"' :: trail.val)
  | .braces lead inner trail => lead.val ++ '\x7b' :: (inner.chars ++ '\x7d' :: trail.val)
  | .bare lead run => lead.val ++ run.val

def Inner.chars : Inner → List Char
  | .none blanks => blanks.val
  | .some elements => elements.chars

def Elements.chars : Elements → List Char
  | .one e => e.chars
  | .more e rest => e.chars ++ ',' :: rest.chars
end

mutual
def Element.value : Element → Value
  | .quoted _ text _ => .text (String.ofList (text.map QuotedChar.value))
  | .braces _ inner _ => .list inner.values
  | .bare _ run => .text (String.ofList (trimChars run.val))

def Inner.values : Inner → List Value
  | .none _ => []
  | .some elements => elements.values

def Elements.values : Elements → List Value
  | .one e => [e.value]
  | .more e rest => e.value :: rest.values
end

/-- Something other than blanks stands in the text. -/
def Visible (cs : List Char) : Prop :=
  ∃ c ∈ cs, isBlank c = false

mutual
/-- Elements between braces are visible, at every depth. -/
def Element.Proper : Element → Prop
  | .braces _ inner _ => inner.Proper
  | _ => True

def Inner.Proper : Inner → Prop
  | .none _ => True
  | .some elements => Visible elements.chars ∧ elements.Proper

def Elements.Proper : Elements → Prop
  | .one e => e.Proper
  | .more e rest => e.Proper ∧ rest.Proper
end

/-- How a text is made of elements. -/
structure Derivation (text : String) where
  elements : Elements
  proper : elements.Proper
  spells : elements.chars = text.toList

/-- The single element, or the list of all of them. -/
def Derivation.value {text : String} (d : Derivation text) : Value :=
  collect d.elements.values

mutual
theorem Element.value_ofTexts : ∀ e : Element, e.value.OfTexts
  | .quoted _ _ _ => trivial
  | .braces _ inner _ => inner.values_ofTexts
  | .bare _ _ => trivial

theorem Inner.values_ofTexts : ∀ i : Inner, Value.OfTextsItems i.values
  | .none _ => trivial
  | .some elements => elements.values_ofTexts

theorem Elements.values_ofTexts : ∀ es : Elements, Value.OfTextsItems es.values
  | .one e => ⟨e.value_ofTexts, trivial⟩
  | .more e rest => ⟨e.value_ofTexts, rest.values_ofTexts⟩
end

/-! ## Where parts of a text end -/

theorem isBare_eq_false {c : Char} (h : isBare c = false) : c = ',' ∨ c = '\x7d' := by
  simpa [isBare, ← imp_iff_or_not, Classical.or_iff_not_imp_left] using h

/-- What ends a bare element is neither a blank nor the start of another element. -/
theorem stopsAt_of_bare {rest : List Char} (h : StopsAt isBare rest) :
    StopsAt startsOtherwise rest := by
  intro c hc
  rcases isBare_eq_false (h c hc) with rfl | rfl <;> decide

theorem stopsAt_blank {rest : List Char} (h : StopsAt startsOtherwise rest) :
    StopsAt isBlank rest :=
  h.mono fun c hc => by simp [startsOtherwise, hc]

theorem BareRun.stopsAt (run : BareRun) {rest : List Char} (h : StopsAt isBare rest) :
    StopsAt startsOtherwise (run.val ++ rest) := by
  obtain ⟨cs, _, hstart⟩ := run
  cases cs with
  | nil => exact stopsAt_of_bare h
  | cons c cs => exact .cons (hstart c rfl)

/-! ## One derivation at most -/

/-- Elements end at a closing brace or at the end of the text, and so does the last of them. -/
theorem stopsAt_bare {rest : List Char} (h : StopsAt (· != '\x7d') rest) : StopsAt isBare rest :=
  h.mono fun c hc => by
    simp only [isBare, Bool.and_eq_true] at hc
    exact hc.2

theorem QuotedChar.unique : ∀ {qs qs' : List QuotedChar} {r r' : List Char},
    qs.flatMap chars ++ '"' :: r = qs'.flatMap chars ++ '"' :: r' → qs = qs' ∧ r = r'
  | [], [], _, _, h => ⟨rfl, (List.cons.inj h).2⟩
  | [], .plain c hc :: qs', _, _, h => (hc.1 (List.cons.inj h).1.symm).elim
  | [], .escaped _ :: qs', _, _, h => by simp [chars] at h
  | .plain c hc :: qs, [], _, _, h => (hc.1 (List.cons.inj h).1).elim
  | .escaped _ :: qs, [], _, _, h => by simp [chars] at h
  | .plain c hc :: qs, .escaped _ :: qs', _, _, h => (hc.2 (List.cons.inj h).1).elim
  | .escaped _ :: qs, .plain c hc :: qs', _, _, h => (hc.2 (List.cons.inj h).1.symm).elim
  | .plain c hc :: qs, .plain d hd :: qs', _, _, h => by
    obtain ⟨hcd, hrest⟩ := List.cons.inj h
    obtain rfl : c = d := hcd
    obtain ⟨rfl, rfl⟩ := unique hrest
    exact ⟨rfl, rfl⟩
  | .escaped c :: qs, .escaped d :: qs', _, _, h => by
    obtain ⟨hcd, hrest⟩ := List.cons.inj (List.cons.inj h).2
    obtain rfl : c = d := hcd
    obtain ⟨rfl, rfl⟩ := unique hrest
    exact ⟨rfl, rfl⟩

/-- What stands behind blanks and starts with none is found by skipping them. -/
theorem Blanks.skip (lead : Blanks) {rest : List Char} (h : StopsAt isBlank rest) :
    (lead.val ++ rest).dropWhile isBlank = rest :=
  (h.takeWhile_append lead.property).2

def Element.lead : Element → Blanks
  | .quoted lead _ _ | .braces lead _ _ | .bare lead _ => lead

/-- The text of an element from its first character on that is not blank. -/
def Element.body : Element → List Char
  | .quoted _ text trail => '"' :: (text.flatMap QuotedChar.chars ++ '"' :: trail.val)
  | .braces _ inner trail => '\x7b' :: (inner.chars ++ '\x7d' :: trail.val)
  | .bare _ run => run.val

theorem Element.chars_eq : ∀ e : Element, e.chars = e.lead.val ++ e.body
  | .quoted _ _ _ | .braces _ _ _ | .bare _ _ => by simp only [chars, lead, body]

theorem Element.stopsAt_body {rest : List Char} (h : StopsAt isBare rest) :
    ∀ e : Element, StopsAt isBlank (e.body ++ rest)
  | .quoted _ _ _ | .braces _ _ _ => .cons (by decide)
  | .bare _ run => stopsAt_blank (run.stopsAt h)

theorem Element.skip (e : Element) {rest : List Char} (h : StopsAt isBare rest) :
    (e.chars ++ rest).dropWhile isBlank = e.body ++ rest := by
  rw [e.chars_eq, List.append_assoc]
  exact e.lead.skip (e.stopsAt_body h)

theorem Element.unique_body {e f : Element} {r s : List Char} (hr : StopsAt isBare r)
    (hs : StopsAt isBare s) (h : e.chars ++ r = f.chars ++ s) :
    e.lead = f.lead ∧ e.body ++ r = f.body ++ s := by
  rw [e.chars_eq, f.chars_eq, List.append_assoc, List.append_assoc] at h
  obtain ⟨hlead, hbody⟩ := (e.stopsAt_body hr).append_inj (f.stopsAt_body hs) e.lead.property
    f.lead.property h
  exact ⟨Subtype.ext hlead, hbody⟩

/-- What follows a quoted text or braces starts behind their blanks. -/
theorem Blanks.unique {lead lead' : Blanks} {r s : List Char} (hr : StopsAt isBare r)
    (hs : StopsAt isBare s) (h : lead.val ++ r = lead'.val ++ s) : lead = lead' ∧ r = s := by
  obtain ⟨hlead, hrest⟩ := (stopsAt_blank (stopsAt_of_bare hr)).append_inj
    (stopsAt_blank (stopsAt_of_bare hs)) lead.property lead'.property h
  exact ⟨Subtype.ext hlead, hrest⟩

/-- Neither a bare element nor what follows it starts like another element. -/
theorem BareRun.ne_cons (run : BareRun) {c : Char} {rest more : List Char}
    (h : StopsAt isBare rest) (hc : startsOtherwise c = true) : run.val ++ rest ≠ c :: more := by
  intro heq
  have := run.stopsAt h c (by rw [heq]; rfl)
  rw [hc] at this
  contradiction

/-- An element does not start like the end of a list. -/
theorem Element.head?_body : ∀ e : Element, e.body.head? ≠ some '\x7d'
  | .quoted _ _ _ | .braces _ _ _ => by simp [body]
  | .bare _ run => by
    intro h
    have := run.property.1 _ (List.mem_of_mem_head? h)
    contradiction

/-- Behind their blanks, elements between braces do not start like the end of the list. -/
theorem Elements.head?_skipped {es : Elements} (h : Visible es.chars) (rest : List Char) :
    ((es.chars ++ '\x7d' :: rest).dropWhile isBlank).head? ≠ some '\x7d' := by
  cases es with
  | one e =>
    rw [Elements.chars, e.skip (.cons (by decide))]
    intro hhead
    -- an element without a body is made of blanks only
    have hbody : e.body ≠ [] := by
      intro hbody
      obtain ⟨c, hc, hvisible⟩ := h
      rw [Elements.chars, e.chars_eq, hbody, List.append_nil] at hc
      rw [e.lead.property c hc] at hvisible
      contradiction
    obtain ⟨c, more, hcons⟩ := List.exists_cons_of_ne_nil hbody
    refine e.head?_body ?_
    rw [hcons] at hhead ⊢
    exact hhead
  | more e es =>
    rw [Elements.chars, List.append_assoc, List.cons_append, e.skip (.cons (by decide)),
      List.head?_append]
    intro hhead
    cases hbody : e.body.head? with
    | none => simp [hbody] at hhead
    | some c =>
      rw [hbody] at hhead
      exact e.head?_body (hbody.trans hhead)

mutual
/-- An element and what follows it can be told apart in one way. -/
theorem Element.unique : ∀ {e f : Element}, e.Proper → f.Proper → ∀ {r s : List Char},
    StopsAt isBare r → StopsAt isBare s → e.chars ++ r = f.chars ++ s → e = f ∧ r = s
  | .quoted lead text trail, .quoted lead' text' trail', _, _, r, s, hr, hs, h => by
    obtain ⟨rfl, hbody⟩ := Element.unique_body hr hs h
    simp only [Element.body, List.cons_append, List.append_assoc] at hbody
    obtain ⟨rfl, htrail⟩ := QuotedChar.unique (List.cons.inj hbody).2
    obtain ⟨rfl, rfl⟩ := Blanks.unique hr hs htrail
    exact ⟨rfl, rfl⟩
  | .braces lead inner trail, .braces lead' inner' trail', he, hf, r, s, hr, hs, h => by
    obtain ⟨rfl, hbody⟩ := Element.unique_body hr hs h
    simp only [Element.body, List.cons_append, List.append_assoc] at hbody
    obtain ⟨rfl, htrail⟩ := Inner.unique he hf (List.cons.inj hbody).2
    obtain ⟨rfl, rfl⟩ := Blanks.unique hr hs htrail
    exact ⟨rfl, rfl⟩
  | .bare lead run, .bare lead' run', _, _, r, s, hr, hs, h => by
    obtain ⟨rfl, hbody⟩ := Element.unique_body hr hs h
    obtain ⟨hrun, rfl⟩ := hr.append_inj hs run.property.1 run'.property.1 hbody
    exact ⟨congrArg _ (Subtype.ext hrun), rfl⟩
  | .quoted _ _ _, .braces _ _ _, _, _, _, _, hr, hs, h
  | .braces _ _ _, .quoted _ _ _, _, _, _, _, hr, hs, h => by
    have hbody := (Element.unique_body hr hs h).2
    simp [Element.body] at hbody
  | .bare _ run, .quoted _ _ _, _, _, _, _, hr, hs, h
  | .bare _ run, .braces _ _ _, _, _, _, _, hr, hs, h =>
    (run.ne_cons hr rfl (Element.unique_body hr hs h).2).elim
  | .quoted _ _ _, .bare _ run, _, _, _, _, hr, hs, h
  | .braces _ _ _, .bare _ run, _, _, _, _, hr, hs, h =>
    (run.ne_cons hs rfl (Element.unique_body hr hs h).2.symm).elim

theorem Inner.unique : ∀ {i j : Inner}, i.Proper → j.Proper → ∀ {r s : List Char},
    i.chars ++ '\x7d' :: r = j.chars ++ '\x7d' :: s → i = j ∧ r = s
  | .none blanks, .none blanks', _, _, r, s, h => by
    obtain ⟨rfl, hrest⟩ := Blanks.unique (.cons (by decide)) (.cons (by decide)) h
    exact ⟨rfl, (List.cons.inj hrest).2⟩
  | .some es, .some fs, hi, hj, r, s, h => by
    obtain ⟨rfl, hrest⟩ := Elements.unique hi.2 hj.2 (.cons (by decide)) (.cons (by decide)) h
    exact ⟨rfl, (List.cons.inj hrest).2⟩
  | .none blanks, .some fs, _, hj, r, s, h => by
    have hhead := Elements.head?_skipped hj.1 s
    simp only [Inner.chars] at h
    rw [← h, blanks.skip (.cons (by decide))] at hhead
    exact (hhead rfl).elim
  | .some es, .none blanks, hi, _, r, s, h => by
    have hhead := Elements.head?_skipped hi.1 r
    simp only [Inner.chars] at h
    rw [h, blanks.skip (.cons (by decide))] at hhead
    exact (hhead rfl).elim

theorem Elements.unique : ∀ {es fs : Elements}, es.Proper → fs.Proper → ∀ {r s : List Char},
    StopsAt (· != '\x7d') r → StopsAt (· != '\x7d') s → es.chars ++ r = fs.chars ++ s →
      es = fs ∧ r = s
  | .one e, .one f, he, hf, r, s, hr, hs, h => by
    obtain ⟨rfl, rfl⟩ := Element.unique he hf (stopsAt_bare hr) (stopsAt_bare hs) h
    exact ⟨rfl, rfl⟩
  | .one e, .more f fs, he, hf, r, s, hr, hs, h => by
    rw [Elements.chars, Elements.chars, List.append_assoc] at h
    obtain ⟨-, rfl⟩ := Element.unique he hf.1 (stopsAt_bare hr) (.cons (by decide)) h
    cases hr ',' rfl
  | .more e es, .one f, he, hf, r, s, hr, hs, h => by
    rw [Elements.chars, Elements.chars, List.append_assoc] at h
    obtain ⟨-, rfl⟩ := Element.unique he.1 hf (.cons (by decide)) (stopsAt_bare hs) h
    cases hs ',' rfl
  | .more e es, .more f fs, he, hf, r, s, hr, hs, h => by
    rw [Elements.chars, Elements.chars, List.append_assoc, List.append_assoc] at h
    obtain ⟨rfl, hrest⟩ := Element.unique he.1 hf.1 (.cons (by decide)) (.cons (by decide)) h
    obtain ⟨rfl, rfl⟩ := Elements.unique he.2 hf.2 hr hs (List.cons.inj hrest).2
    exact ⟨rfl, rfl⟩
end

/-- **A text has one derivation at most.** -/
theorem Derivation.unique {text : String} (d d' : Derivation text) : d = d' := by
  obtain ⟨es, hes, htext⟩ := d
  obtain ⟨fs, hfs, htext'⟩ := d'
  have hsame : es.chars ++ [] = fs.chars ++ [] := by rw [htext, htext']
  obtain ⟨rfl, -⟩ := Elements.unique hes hfs .nil .nil hsame
  rfl

end Arguments

end TorrentControl

import TorrentControl.Proofs.Statement.Grammar

/-! # Arguments are read by their grammar

What each reader takes from the front of a text, said once for all of them, and then along the texts
and the derivations: what is read has a derivation, and what has a derivation is read. -/

namespace TorrentControl

namespace Arguments

open Json (StopsAt)
open Text (isBlank trimChars)

/-! ## What readers take -/

/-- The reader reads `a` and leaves `rest`. -/
def Reads {α : Type} {cs : List Char} (reader : Except Stop (α × Rest cs)) (a : α)
    (rest : List Char) : Prop :=
  ∃ h, reader = .ok (a, ⟨rest, h⟩)

section Reads

variable {α β : Type} {cs few rest : List Char}

theorem reads_pure {a b : α} {left : Rest cs} :
    Reads (pure (a, left)) b rest ↔ b = a ∧ rest = left.val := by
  constructor
  · rintro ⟨h, heq⟩
    cases heq
    exact ⟨rfl, rfl⟩
  · rintro ⟨rfl, rfl⟩
    exact ⟨left.property, rfl⟩

theorem not_reads_error {stop : Stop} {a : α} :
    ¬ Reads (.error stop : Except Stop (α × Rest cs)) a rest :=
  fun ⟨_, h⟩ => nomatch h

theorem reads_bind {reader : Except Stop (α × Rest few)}
    {next : α × Rest few → Except Stop (β × Rest cs)} {b : β} :
    Reads (reader >>= next) b rest ↔ ∃ a mid, ∃ h : Reads reader a mid,
      Reads (next (a, ⟨mid, h.1⟩)) b rest := by
  rcases reader with stop | ⟨a, mid⟩
  · exact ⟨fun h => (not_reads_error h).elim, fun ⟨_, _, h, _⟩ => (not_reads_error h).elim⟩
  · constructor
    · exact fun h => ⟨a, mid.val, ⟨mid.property, rfl⟩, h⟩
    · rintro ⟨a', mid', ⟨_, heq⟩, h⟩
      cases heq
      exact h

end Reads

/-- The text ends elements: by the brace of a list, or because nothing is left. -/
inductive Closes : Bool → List Char → List Char → Prop where
  | brace (rest : List Char) : Closes true ('\x7d' :: rest) rest
  | done : Closes false [] []

theorem Closes.stopsAt {nested : Bool} {cs rest : List Char} (h : Closes nested cs rest) :
    StopsAt (· != '\x7d') cs := by
  cases h with
  | brace rest => exact .cons rfl
  | done => exact .nil

theorem stopsAt_dropWhile (p : Char → Bool) (cs : List Char) : StopsAt p (cs.dropWhile p) := by
  intro c hc
  rw [← List.find?_not_eq_head?_dropWhile] at hc
  simpa using List.find?_some hc

theorem reads_quoted {cs text rest : List Char} :
    Reads (quoted cs) text rest ↔ ∃ qs : List QuotedChar,
      cs = qs.flatMap QuotedChar.chars ++ '"' :: rest ∧ text = qs.map QuotedChar.value := by
  constructor
  · intro h
    fun_induction quoted cs generalizing text with
    | case1 => exact (not_reads_error h).elim
    | case2 more =>
      obtain ⟨rfl, rfl⟩ := reads_pure.1 h
      exact ⟨[], rfl, rfl⟩
    | case3 => exact (not_reads_error h).elim
    | case4 c more ih =>
      obtain ⟨inner, mid, hread, hpure⟩ := reads_bind.1 h
      obtain ⟨rfl, rfl⟩ := reads_pure.1 hpure
      obtain ⟨qs, rfl, rfl⟩ := ih hread
      exact ⟨.escaped c :: qs, rfl, rfl⟩
    | case5 c more hquote hlast hslash ih =>
      obtain ⟨inner, mid, hread, hpure⟩ := reads_bind.1 h
      obtain ⟨rfl, rfl⟩ := reads_pure.1 hpure
      obtain ⟨qs, rfl, rfl⟩ := ih hread
      have hplain : c ≠ '"' ∧ c ≠ '\\' := by
        refine ⟨hquote, fun hc => ?_⟩
        obtain ⟨d, ds, hcons⟩ := List.exists_cons_of_ne_nil (hlast hc)
        exact hslash d ds hc hcons
      exact ⟨.plain c hplain :: qs, rfl, rfl⟩
  · rintro ⟨qs, rfl, rfl⟩
    induction qs with
    | nil => exact reads_pure.2 ⟨rfl, rfl⟩
    | cons q qs ih =>
      cases q with
      | plain c hc =>
        rw [List.flatMap_cons, List.append_assoc, QuotedChar.chars, List.singleton_append, quoted]
        · exact reads_bind.2 ⟨_, rest, ih, reads_pure.2 ⟨rfl, rfl⟩⟩
        · exact hc.1
        · exact fun h => (hc.2 h).elim
        · exact fun _ _ h => (hc.2 h).elim
      | escaped c =>
        rw [List.flatMap_cons, List.append_assoc, QuotedChar.chars, List.cons_append,
          List.singleton_append, quoted]
        exact reads_bind.2 ⟨_, rest, ih, reads_pure.2 ⟨rfl, rfl⟩⟩

theorem reads_element {cs : List Char} {v : Value} {rest : List Char} :
    Reads (element cs) v rest ↔
      (∃ more text, cs.dropWhile isBlank = '"' :: more ∧ Reads (quoted more) text rest ∧
        v = .text (String.ofList text)) ∨
      (∃ more items, cs.dropWhile isBlank = '\x7b' :: more ∧ Reads (listBody more) items rest ∧
        v = .list items) ∨
      (StopsAt startsOtherwise (cs.dropWhile isBlank) ∧
        v = .text (String.ofList (trimChars ((cs.dropWhile isBlank).takeWhile isBare))) ∧
        rest = (cs.dropWhile isBlank).dropWhile isBare) := by
  rw [element]
  split
  · rename_i more hc
    have hskip : cs.dropWhile isBlank = '"' :: more := hc
    rw [hskip]
    constructor
    · intro h
      obtain ⟨text, mid, hread, hpure⟩ := reads_bind.1 h
      obtain ⟨rfl, rfl⟩ := reads_pure.1 hpure
      exact .inl ⟨more, text, rfl, hread, rfl⟩
    · rintro (⟨more, text, hmore, hread, rfl⟩ | ⟨more, text, hmore, _⟩ | ⟨hstart, _⟩)
      · cases hmore
        exact reads_bind.2 ⟨text, rest, hread, reads_pure.2 ⟨rfl, rfl⟩⟩
      · cases hmore
      · cases hstart '"' rfl
  · rename_i more hc
    have hskip : cs.dropWhile isBlank = '\x7b' :: more := hc
    rw [hskip]
    constructor
    · intro h
      obtain ⟨items, mid, hread, hpure⟩ := reads_bind.1 h
      obtain ⟨rfl, rfl⟩ := reads_pure.1 hpure
      exact .inr (.inl ⟨more, items, rfl, hread, rfl⟩)
    · rintro (⟨more, text, hmore, _⟩ | ⟨more, items, hmore, hread, rfl⟩ | ⟨hstart, _⟩)
      · cases hmore
      · cases hmore
        exact reads_bind.2 ⟨items, rest, hread, reads_pure.2 ⟨rfl, rfl⟩⟩
      · cases hstart '\x7b' rfl
  · rename_i hquote hbrace
    constructor
    · intro h
      obtain ⟨rfl, rfl⟩ := reads_pure.1 h
      refine .inr (.inr ⟨?_, rfl, rfl⟩)
      intro c hc
      obtain ⟨more, hmore⟩ := List.head?_eq_some_iff.1 hc
      have hblank : isBlank c = false := stopsAt_dropWhile isBlank cs c hc
      have hne : c ≠ '"' := by
        rintro rfl
        exact hquote more hmore
      have hne' : c ≠ '\x7b' := by
        rintro rfl
        exact hbrace more hmore
      simp [startsOtherwise, hblank, hne, hne']
    · rintro (⟨more, text, hmore, _⟩ | ⟨more, text, hmore, _⟩ | ⟨_, hv, hrest⟩)
      · exact (hquote more hmore).elim
      · exact (hbrace more hmore).elim
      · exact reads_pure.2 ⟨hv, hrest⟩

theorem reads_listBody {cs : List Char} {vs : List Value} {rest : List Char} :
    Reads (listBody cs) vs rest ↔
      (cs.dropWhile isBlank = '\x7d' :: rest ∧ vs = []) ∨
      ((cs.dropWhile isBlank).head? ≠ some '\x7d' ∧ Reads (elements true cs) vs rest) := by
  rw [listBody]
  split
  · rename_i more hc
    have hskip : cs.dropWhile isBlank = '\x7d' :: more := hc
    rw [hskip]
    constructor
    · intro h
      obtain ⟨rfl, rfl⟩ := reads_pure.1 h
      exact .inl ⟨rfl, rfl⟩
    · rintro (⟨hmore, rfl⟩ | ⟨hhead, _⟩)
      · cases hmore
        exact reads_pure.2 ⟨rfl, rfl⟩
      · exact (hhead rfl).elim
  · rename_i hbrace
    constructor
    · intro h
      refine .inr ⟨fun hhead => ?_, h⟩
      obtain ⟨more, hmore⟩ := List.head?_eq_some_iff.1 hhead
      exact hbrace more hmore
    · rintro (⟨hmore, _⟩ | ⟨_, h⟩)
      · exact (hbrace rest hmore).elim
      · exact h

theorem reads_elements {nested : Bool} {cs : List Char} {vs : List Value} {rest : List Char} :
    Reads (elements nested cs) vs rest ↔ ∃ v mid, Reads (element cs) v mid ∧
      ((∃ more others, mid.dropWhile isBlank = ',' :: more ∧
          Reads (elements nested more) others rest ∧ vs = v :: others) ∨
        (Closes nested (mid.dropWhile isBlank) rest ∧ vs = [v])) := by
  rw [elements, reads_bind]
  refine exists_congr fun v => exists_congr fun mid => ?_
  rw [← exists_prop]
  refine exists_congr fun hread => ?_
  dsimp only
  split
  · rename_i more hc
    have hskip : mid.dropWhile isBlank = ',' :: more := hc
    rw [hskip]
    constructor
    · intro h
      obtain ⟨others, last, hothers, hpure⟩ := reads_bind.1 h
      obtain ⟨rfl, rfl⟩ := reads_pure.1 hpure
      exact .inl ⟨more, others, rfl, hothers, rfl⟩
    · rintro (⟨more, others, hmore, hothers, rfl⟩ | ⟨hclose, _⟩)
      · cases hmore
        exact reads_bind.2 ⟨others, rest, hothers, reads_pure.2 ⟨rfl, rfl⟩⟩
      · cases hclose
  · rename_i hc
    have hskip : mid.dropWhile isBlank = [] := hc
    rw [hskip]
    cases nested with
    | false =>
      constructor
      · intro h
        obtain ⟨rfl, rfl⟩ := reads_pure.1 h
        exact .inr ⟨.done, rfl⟩
      · rintro (⟨more, others, hmore, _⟩ | ⟨hclose, rfl⟩)
        · cases hmore
        · cases hclose
          exact reads_pure.2 ⟨rfl, rfl⟩
    | true =>
      constructor
      · exact fun h => (not_reads_error h).elim
      · rintro (⟨more, others, hmore, _⟩ | ⟨hclose, rfl⟩)
        · cases hmore
        · cases hclose
  · rename_i c more hcomma hc
    have hskip : mid.dropWhile isBlank = c :: more := hc
    rw [hskip]
    split
    · rename_i hbrace
      obtain ⟨rfl, rfl⟩ := hbrace
      constructor
      · intro h
        obtain ⟨rfl, rfl⟩ := reads_pure.1 h
        exact .inr ⟨.brace _, rfl⟩
      · rintro (⟨more, others, hmore, _⟩ | ⟨hclose, rfl⟩)
        · cases hmore
        · cases hclose
          exact reads_pure.2 ⟨rfl, rfl⟩
    · rename_i hbrace
      constructor
      · exact fun h => (not_reads_error h).elim
      · rintro (⟨more, others, hmore, _⟩ | ⟨hclose, rfl⟩)
        · exact (hcomma (List.cons.inj hmore).1).elim
        · cases hclose
          exact (hbrace ⟨rfl, rfl⟩).elim

/-! ## What has a derivation is read -/

theorem skip_of_bare {rest : List Char} (h : StopsAt isBare rest) :
    rest.dropWhile isBlank = rest :=
  Blanks.none.skip (stopsAt_blank (stopsAt_of_bare h))

mutual
/-- An element is read up to the blanks behind it. -/
theorem Element.reads : ∀ {e : Element}, e.Proper → ∀ {rest : List Char}, StopsAt isBare rest →
    ∃ mid, Reads (element (e.chars ++ rest)) e.value mid ∧ mid.dropWhile isBlank = rest
  | .quoted lead text trail, _, rest, hrest => by
    have hbehind := trail.skip (stopsAt_blank (stopsAt_of_bare hrest))
    refine ⟨trail.val ++ rest, reads_element.2 (.inl ?_), hbehind⟩
    refine ⟨_, _, Element.skip _ hrest, reads_quoted.2 ⟨text, ?_, rfl⟩, rfl⟩
    simp
  | .braces lead inner trail, hinner, rest, hrest => by
    have hbehind := trail.skip (stopsAt_blank (stopsAt_of_bare hrest))
    refine ⟨trail.val ++ rest, reads_element.2 (.inr (.inl ?_)), hbehind⟩
    refine ⟨_, _, Element.skip _ hrest, ?_, rfl⟩
    rw [List.append_eq, List.append_assoc, List.cons_append]
    exact Inner.reads hinner (trail.val ++ rest)
  | .bare lead run, _, rest, hrest => by
    obtain ⟨htake, hdrop⟩ := hrest.takeWhile_append run.property.1
    refine ⟨rest, reads_element.2 (.inr (.inr ?_)), skip_of_bare hrest⟩
    rw [Element.skip _ hrest, Element.body, htake, hdrop]
    exact ⟨run.stopsAt hrest, rfl, rfl⟩

theorem Inner.reads : ∀ {i : Inner}, i.Proper → ∀ rest : List Char,
    Reads (listBody (i.chars ++ '\x7d' :: rest)) i.values rest
  | .none blanks, _, rest =>
    reads_listBody.2 (.inl ⟨blanks.skip (.cons (by decide)), rfl⟩)
  | .some es, h, rest =>
    reads_listBody.2 (.inr ⟨Elements.head?_skipped h.1 rest, Elements.reads h.2 (.brace rest)⟩)

theorem Elements.reads : ∀ {es : Elements}, es.Proper → ∀ {nested : Bool} {after rest : List Char},
    Closes nested after rest → Reads (elements nested (es.chars ++ after)) es.values rest
  | .one e, he, nested, after, rest, hclose => by
    obtain ⟨mid, hread, hmid⟩ := Element.reads he (stopsAt_bare hclose.stopsAt)
    exact reads_elements.2 ⟨e.value, mid, hread, .inr ⟨hmid ▸ hclose, rfl⟩⟩
  | .more e es, he, nested, after, rest, hclose => by
    have hcomma : StopsAt isBare (',' :: (es.chars ++ after)) := .cons (by decide)
    obtain ⟨mid, hread, hmid⟩ := Element.reads he.1 hcomma
    rw [Elements.chars, List.append_assoc]
    exact reads_elements.2 ⟨e.value, mid, hread,
      .inl ⟨_, es.values, hmid, Elements.reads he.2 hclose, rfl⟩⟩
end

/-! ## What is read has a derivation -/

/-- The blanks at the front of a text. -/
def Blanks.front (cs : List Char) : Blanks :=
  ⟨cs.takeWhile isBlank, fun _ h => List.mem_takeWhile_imp h⟩

theorem Blanks.front_append (cs : List Char) : (front cs).val ++ cs.dropWhile isBlank = cs :=
  List.takeWhile_append_dropWhile

/-- The bare element at the front of a text that starts with no other one. -/
def BareRun.front (cs : List Char) (h : StopsAt startsOtherwise cs) : BareRun :=
  ⟨cs.takeWhile isBare, fun _ h => List.mem_takeWhile_imp h, fun c hc => h c (by
    cases cs with
    | nil => simp at hc
    | cons d ds =>
      rw [List.takeWhile_cons] at hc
      split at hc
      · exact hc
      · simp at hc)⟩

theorem BareRun.front_append {cs : List Char} (h : StopsAt startsOtherwise cs) :
    (front cs h).val ++ cs.dropWhile isBare = cs :=
  List.takeWhile_append_dropWhile

mutual
theorem exists_element {cs : List Char} {v : Value} {mid : List Char}
    (h : Reads (element cs) v mid) :
    ∃ e : Element, e.Proper ∧ e.value = v ∧ cs = e.chars ++ mid.dropWhile isBlank := by
  rcases reads_element.1 h with ⟨more, text, hskip, hread, rfl⟩ | ⟨more, items, hskip, hread, rfl⟩ |
    ⟨hstart, rfl, rfl⟩
  · obtain ⟨qs, rfl, rfl⟩ := reads_quoted.1 hread
    refine ⟨.quoted (.front cs) qs (.front mid), trivial, rfl, ?_⟩
    simp only [Element.chars, List.append_assoc, List.cons_append, Blanks.front_append, ← hskip]
  · have hlt : more.length < cs.length := by
      have := Text.dropWhile_length_le isBlank cs
      rw [hskip, List.length_cons] at this
      omega
    obtain ⟨inner, hinner, rfl, rfl⟩ := exists_inner hread
    refine ⟨.braces (.front cs) inner (.front mid), hinner, rfl, ?_⟩
    simp only [Element.chars, List.append_assoc, List.cons_append, Blanks.front_append, ← hskip]
  · refine ⟨.bare (.front cs) (.front _ hstart), trivial, rfl, ?_⟩
    rw [skip_of_bare (stopsAt_dropWhile isBare _), Element.chars, List.append_assoc,
      BareRun.front_append, Blanks.front_append]
termination_by (cs.length, 0)

theorem exists_inner {cs : List Char} {vs : List Value} {rest : List Char}
    (h : Reads (listBody cs) vs rest) :
    ∃ i : Inner, i.Proper ∧ i.values = vs ∧ cs = i.chars ++ '\x7d' :: rest := by
  rcases reads_listBody.1 h with ⟨hskip, rfl⟩ | ⟨hhead, hread⟩
  · refine ⟨.none (.front cs), trivial, rfl, ?_⟩
    rw [Inner.chars, ← hskip, Blanks.front_append]
  · obtain ⟨es, after, hes, rfl, hclose, rfl⟩ := exists_elements hread
    cases hclose
    refine ⟨.some es, ⟨?_, hes⟩, rfl, rfl⟩
    -- blanks alone would have been read as the empty list
    by_contra hvisible
    have hblank : ∀ c ∈ es.chars, isBlank c = true := by
      intro c hc
      by_contra hne
      exact hvisible ⟨c, hc, by simpa using hne⟩
    exact hhead (by rw [Blanks.skip ⟨es.chars, hblank⟩ (.cons (by decide))]; rfl)
termination_by (cs.length, 2)

theorem exists_elements {nested : Bool} {cs : List Char} {vs : List Value} {rest : List Char}
    (h : Reads (elements nested cs) vs rest) :
    ∃ (es : Elements) (after : List Char), es.Proper ∧ es.values = vs ∧ Closes nested after rest ∧
      cs = es.chars ++ after := by
  obtain ⟨v, mid, hread, hrest⟩ := reads_elements.1 h
  obtain ⟨e, he, rfl, heq⟩ := exists_element hread
  rcases hrest with ⟨more, others, hskip, hothers, rfl⟩ | ⟨hclose, rfl⟩
  · have hlt : more.length < cs.length := by
      rw [heq, hskip, List.length_append, List.length_cons]
      omega
    obtain ⟨es, after, hes, rfl, hclose, rfl⟩ := exists_elements hothers
    refine ⟨.more e es, after, ⟨he, hes⟩, rfl, hclose, ?_⟩
    rw [heq, hskip, Elements.chars, List.append_assoc]
    rfl
  · exact ⟨.one e, _, he, rfl, hclose, heq⟩
termination_by (cs.length, 1)
end

/-! ## Texts of arguments -/

/-- What is read to the end is what a derivation says. -/
theorem elements_ok_iff {text : String} {vs : List Value} :
    (∃ rest, elements false text.toList = .ok (vs, rest)) ↔
      ∃ d : Derivation text, d.elements.values = vs := by
  constructor
  · rintro ⟨rest, hread⟩
    obtain ⟨es, after, hes, hvalues, hclose, htext⟩ := exists_elements ⟨rest.property, hread⟩
    generalize rest.val = last at hclose
    cases hclose
    exact ⟨⟨es, hes, by rw [htext, List.append_nil]⟩, hvalues⟩
  · rintro ⟨⟨es, hes, htext⟩, rfl⟩
    have hreads := Elements.reads hes .done
    rw [List.append_nil, htext] at hreads
    obtain ⟨h, hread⟩ := hreads
    exact ⟨_, hread⟩

theorem isBlankText_of_visible {cs : List Char} (h : Visible cs) :
    Text.isBlankText (String.ofList cs) = false := by
  obtain ⟨c, hc, hvisible⟩ := h
  rw [Text.isBlankText, String.toList_ofList, List.all_eq_false]
  exact ⟨c, hc, by simp [hvisible]⟩

theorem parse_ok_iff {text : String} (hvisible : Text.isBlankText text = false) {v : Value} :
    parse text = .ok v ↔ ∃ d : Derivation text, d.value = v := by
  rw [parse, if_neg (by rw [hvisible]; decide)]
  constructor
  · intro h
    split at h
    · rename_i vs rest hread
      cases h
      obtain ⟨d, rfl⟩ := elements_ok_iff.1 ⟨rest, hread⟩
      exact ⟨d, rfl⟩
    · cases h
  · rintro ⟨d, rfl⟩
    obtain ⟨rest, hread⟩ := elements_ok_iff.2 ⟨d, rfl⟩
    rw [hread]
    rfl

/-- A bare word is read as itself, without the blanks at its end. -/
theorem parse_bare {run : BareRun} (h : Visible run.val) :
    parse (String.ofList run.val) = .ok (.text (String.ofList (Text.trimChars run.val))) := by
  have hproper : (Elements.one (.bare .none run)).Proper := trivial
  have hspells : (Elements.one (.bare .none run)).chars = (String.ofList run.val).toList := by
    rw [String.toList_ofList]
    rfl
  exact (parse_ok_iff (isBlankText_of_visible h)).2 ⟨⟨_, hproper, hspells⟩, rfl⟩

theorem collect_ofTexts : ∀ {vs : List Value}, Value.OfTextsItems vs → (collect vs).OfTexts
  | [], _ => trivial
  | [_], h => h.1
  | _ :: _ :: _, h => h

/-- **Arguments are accepted as their grammar says.** A blank text is the empty value. Any other one
is accepted exactly if it has a derivation, of which there is one at most, and has the value of that
derivation; if it has none, it is refused as a text that cannot be read. A value that is not empty is
built from texts and lists. -/
theorem parse_accepts_grammar (text : String) :
    (∀ v, parse text = .ok v ↔
      if Text.isBlankText text then v = .empty else ∃ d : Derivation text, d.value = v) ∧
    (∀ d d' : Derivation text, d = d') ∧
    (Text.isBlankText text = false → IsEmpty (Derivation text) →
      ∃ fault, Except.mapError CommandError.parse (parse text) = .error (.parse fault)) ∧
    ∀ v, parse text = .ok v → v = .empty ∨ v.OfTexts := by
  have hiff (v : Value) : parse text = .ok v ↔
      if Text.isBlankText text then v = .empty else ∃ d : Derivation text, d.value = v := by
    split
    · rename_i hblank
      rw [parse, if_pos hblank]
      exact ⟨fun h => (Except.ok.inj h).symm, fun h => h ▸ rfl⟩
    · rename_i hvisible
      exact parse_ok_iff (by simpa using hvisible)
  refine ⟨hiff, Derivation.unique, fun hvisible hnone => ?_, fun v h => ?_⟩
  · cases hparse : parse text with
    | error fault => exact ⟨fault, rfl⟩
    | ok v =>
      obtain ⟨d, -⟩ := (parse_ok_iff hvisible).1 hparse
      exact hnone.elim d
  · have hv := (hiff v).1 h
    split at hv
    · exact .inl hv
    · obtain ⟨d, rfl⟩ := hv
      exact .inr (collect_ofTexts d.elements.values_ofTexts)

end Arguments

/-! ## Statements -/

namespace Statement

open Text (trimChars)

/-- The arguments behind the equals sign, if there is one. -/
def readTail : Option (List Char) → Except ParseFault Value
  | none => .ok .empty
  | some args => Arguments.parse (String.ofList args)

/-- A text in front of the equals sign that can be trimmed to a key. -/
structure HoldsKey (head : List Char) : Prop where
  nonempty : trimChars head ≠ []
  allowed : (trimChars head).any isForbidden = false

theorem parse_ok_iff {text : String} {statement : Statement} :
    parse text = .ok statement ↔
      ∃ head tail, Text.splitFirst '=' text.toList = (head, tail) ∧ HoldsKey head ∧
        statement.key = String.ofList (trimChars head) ∧ readTail tail = .ok statement.args := by
  obtain ⟨key, v⟩ := statement
  rcases hsplit : Text.splitFirst '=' text.toList with ⟨head, tail⟩
  simp only [parse, hsplit, bind, Except.bind, pure, Except.pure, throw, throwThe,
    MonadExceptOf.throw]
  constructor
  · intro h
    refine ⟨head, tail, rfl, ?_⟩
    split at h
    · cases h
    · rename_i hnonempty
      split at h
      · cases h
      · rename_i hallowed
        refine ⟨⟨hnonempty, by simpa using hallowed⟩, ?_⟩
        split at h
        · cases h
          exact ⟨rfl, rfl⟩
        · split at h
          · cases h
          · rename_i hargs
            cases h
            exact ⟨rfl, hargs⟩
  · rintro ⟨_, _, heq, hkey, rfl, hargs⟩
    cases heq
    rw [if_neg hkey.nonempty, if_neg (by rw [hkey.allowed]; decide)]
    cases tail with
    | none =>
      cases hargs
      rfl
    | some args =>
      simp only [readTail] at hargs
      simp only [hargs]

end Statement

end TorrentControl

import TorrentControl.Proofs.Json.Token

/-! # Texts and the documents read from them

The reader takes a whole text for a document exactly if the text is JSON for it and does not nest
deeper than the reader may go. Between the two stands the grammar of tokens, which the reader
follows step by step, and whose words are those of the text. Only strings with half of a surrogate
pair are read although the grammar of texts does not have them. -/

namespace TorrentControl.Json

namespace Document

mutual
/-- How many arrays and objects stand inside each other at most. -/
def nesting : Document → Nat
  | .array items _ => nestingItems items + 1
  | .object members _ => nestingMembers members + 1
  | _ => 0

def nestingItems : List Document → Nat
  | [] => 0
  | d :: rest => max (nesting d) (nestingItems rest)

def nestingMembers : List (Option String × Document) → Nat
  | [] => 0
  | (_, d) :: rest => max (nesting d) (nestingMembers rest)
end

mutual
/-- Every text and every key has content. -/
def Joined : Document → Prop
  | .text content => content.isSome
  | .array items _ => JoinedItems items
  | .object members _ => JoinedMembers members
  | _ => True

def JoinedItems : List Document → Prop
  | [] => True
  | d :: rest => Joined d ∧ JoinedItems rest

def JoinedMembers : List (Option String × Document) → Prop
  | [] => True
  | (key, d) :: rest => key.isSome ∧ Joined d ∧ JoinedMembers rest
end

/-! ## The grammar of tokens -/

mutual
/-- The tokens start with the value, and the rest follows it. Arrays and objects nest `limit` deep
at most. -/
inductive Reads : Nat → List Token → Document → List Token → Prop where
  | null {limit : Nat} {rest : List Token} : Reads limit (.null :: rest) .null rest
  | bool {limit : Nat} {b : Bool} {rest : List Token} : Reads limit (.bool b :: rest) (.bool b) rest
  | number {limit : Nat} {n : Numeral} {rest : List Token} :
      Reads limit (.number n :: rest) (.number n) rest
  | text {limit : Nat} {pieces : List Piece} {rest : List Token} :
      Reads limit (.string pieces :: rest) (.text (content pieces)) rest
  | emptyArray {limit : Nat} {rest : List Token} :
      Reads (limit + 1) (.openBracket :: .closeBracket :: rest) (.array [] .closed) rest
  | array {limit : Nat} {ts rest : List Token} {items : List Document}
      (h : ReadsItems limit ts items rest) :
      Reads (limit + 1) (.openBracket :: ts) (.array items .closed) rest
  | emptyObject {limit : Nat} {rest : List Token} :
      Reads (limit + 1) (.openBrace :: .closeBrace :: rest) (.object [] .closed) rest
  | object {limit : Nat} {ts rest : List Token} {members : List (Option String × Document)}
      (h : ReadsMembers limit ts members rest) :
      Reads (limit + 1) (.openBrace :: ts) (.object members .closed) rest

/-- The tokens start with the items of an array and its closing bracket. -/
inductive ReadsItems : Nat → List Token → List Document → List Token → Prop where
  | one {limit : Nat} {ts rest : List Token} {d : Document}
      (h : Reads limit ts d (.closeBracket :: rest)) : ReadsItems limit ts [d] rest
  | cons {limit : Nat} {ts more rest : List Token} {d : Document} {items : List Document}
      (h : Reads limit ts d (.comma :: more)) (hmore : ReadsItems limit more items rest) :
      ReadsItems limit ts (d :: items) rest

/-- The tokens start with the members of an object and its closing brace. -/
inductive ReadsMembers : Nat → List Token → List (Option String × Document) → List Token → Prop where
  | one {limit : Nat} {pieces : List Piece} {ts rest : List Token} {d : Document}
      (h : Reads limit ts d (.closeBrace :: rest)) :
      ReadsMembers limit (.string pieces :: .colon :: ts) [(content pieces, d)] rest
  | cons {limit : Nat} {pieces : List Piece} {ts more rest : List Token} {d : Document}
      {members : List (Option String × Document)} (h : Reads limit ts d (.comma :: more))
      (hmore : ReadsMembers limit more members rest) :
      ReadsMembers limit (.string pieces :: .colon :: ts) ((content pieces, d) :: members) rest
end

/-! ## The reader follows it -/

mutual
theorem reads_of_readValue {limit : Nat} : ∀ {ts : List Token} {d : Document} {rest : Rest ts},
    readValue limit ts = (d, some rest) → Reads limit ts d rest.val
  | [], _, _, h => by simp [readValue] at h
  | t :: more, d, rest, h => by
    unfold readValue at h
    cases t with
    | null =>
      cases h
      exact .null
    | bool =>
      cases h
      exact .bool
    | number =>
      cases h
      exact .number
    | string =>
      cases h
      exact .text
    | openBracket =>
      cases limit with
      | zero => cases h
      | succ inner =>
        simp only at h
        split at h
        · cases h
          exact .emptyArray
        · rcases hread : readItems inner more with ⟨items, ending, _ | last⟩ <;> rw [hread] at h <;>
            cases h
          obtain ⟨rfl, hitems⟩ := readsItems_of_readItems hread
          exact .array hitems
    | openBrace =>
      cases limit with
      | zero => cases h
      | succ inner =>
        simp only at h
        split at h
        · cases h
          exact .emptyObject
        · rcases hread : readMembers inner more with ⟨members, ending, _ | last⟩ <;>
            rw [hread] at h <;> cases h
          obtain ⟨rfl, hmembers⟩ := readsMembers_of_readMembers hread
          exact .object hmembers
    | closeBrace | closeBracket | colon | comma | fault => cases h
termination_by ts => (ts.length, 0)
decreasing_by
  · apply Prod.Lex.left; simp
  · apply Prod.Lex.left; simp

theorem readsItems_of_readItems {limit : Nat} {ts : List Token} {items : List Document}
    {ending : Ending} {rest : Rest ts} (h : readItems limit ts = (items, ending, some rest)) :
    ending = .closed ∧ ReadsItems limit ts items rest.val := by
  rw [readItems] at h
  rcases hvalue : readValue limit ts with ⟨d, _ | ⟨val, hlt⟩⟩
  · rw [hvalue] at h
    cases h
  · rw [hvalue] at h
    have hd := reads_of_readValue hvalue
    simp only at h hd
    split at h
    · cases h
      exact ⟨rfl, .one hd⟩
    · rename_i more
      rcases hread : readItems limit more with ⟨items, ending, _ | last⟩ <;> rw [hread] at h <;>
        cases h
      obtain ⟨rfl, hitems⟩ := readsItems_of_readItems hread
      exact ⟨rfl, .cons hd hitems⟩
    · cases h
termination_by (ts.length, 1)
decreasing_by
  · apply Prod.Lex.right; omega
  · apply Prod.Lex.left
    simp only [List.length_cons] at hlt
    omega

theorem readsMembers_of_readMembers {limit : Nat} : ∀ {ts : List Token}
    {members : List (Option String × Document)} {ending : Ending} {rest : Rest ts},
    readMembers limit ts = (members, ending, some rest) →
      ending = .closed ∧ ReadsMembers limit ts members rest.val
  | [], _, _, _, h => by simp [readMembers] at h
  | [t], _, _, _, h => by cases t <;> simp [readMembers] at h
  | t :: t' :: ts, members, ending, rest, h => by
    by_cases hstart : ∃ pieces, t = .string pieces ∧ t' = .colon
    · obtain ⟨pieces, rfl, rfl⟩ := hstart
      rw [readMembers] at h
      rcases hvalue : readValue limit ts with ⟨d, _ | ⟨val, hlt⟩⟩
      · rw [hvalue] at h
        cases h
      · rw [hvalue] at h
        have hd := reads_of_readValue hvalue
        simp only at h hd
        split at h
        · cases h
          exact ⟨rfl, .one hd⟩
        · rename_i more
          rcases hread : readMembers limit more with ⟨members, ending, _ | last⟩ <;>
            rw [hread] at h <;> cases h
          obtain ⟨rfl, hmembers⟩ := readsMembers_of_readMembers hread
          exact ⟨rfl, .cons hd hmembers⟩
        · cases h
    · cases t <;> cases t' <;> simp_all [readMembers]
termination_by ts => (ts.length, 1)
decreasing_by
  · apply Prod.Lex.left; simp only [List.length_cons]; omega
  · apply Prod.Lex.left
    simp only [List.length_cons] at hlt ⊢
    omega
end

mutual
theorem Reads.readValue_eq {limit : Nat} {ts rest : List Token} {d : Document} :
    Reads limit ts d rest → ∃ h, readValue limit ts = (d, some ⟨rest, h⟩)
  | .null => ⟨Nat.lt_succ_self _, by rw [readValue]⟩
  | .bool => ⟨Nat.lt_succ_self _, by rw [readValue]⟩
  | .number => ⟨Nat.lt_succ_self _, by rw [readValue]⟩
  | .text => ⟨Nat.lt_succ_self _, by rw [readValue]⟩
  | .emptyArray => ⟨by simp only [List.length_cons]; omega, by rw [readValue]⟩
  | .emptyObject => ⟨by simp only [List.length_cons]; omega, by rw [readValue]⟩
  | .array h => by
    obtain ⟨hlt, hitems⟩ := h.readItems_eq
    refine ⟨Nat.lt_trans hlt (Nat.lt_succ_self _), ?_⟩
    rw [readValue]
    · rw [hitems]
      rfl
    · -- no value starts with the closing bracket, so the items would not have been read
      rintro more rfl
      rw [readItems] at hitems
      simp [readValue] at hitems
  | .object h => by
    obtain ⟨hlt, hmembers⟩ := h.readMembers_eq
    refine ⟨Nat.lt_trans hlt (Nat.lt_succ_self _), ?_⟩
    rw [readValue]
    · rw [hmembers]
      rfl
    · rintro more rfl
      simp [readMembers] at hmembers

theorem ReadsItems.readItems_eq {limit : Nat} {ts rest : List Token} {items : List Document} :
    ReadsItems limit ts items rest → ∃ h, readItems limit ts = (items, .closed, some ⟨rest, h⟩)
  | .one h => by
    obtain ⟨hlt, hread⟩ := h.readValue_eq
    refine ⟨Nat.lt_trans (Nat.lt_succ_self _) hlt, ?_⟩
    rw [readItems, hread]
    rfl
  | .cons h hmore => by
    obtain ⟨hlt, hread⟩ := h.readValue_eq
    obtain ⟨hlast, hitems⟩ := hmore.readItems_eq
    refine ⟨Nat.lt_trans hlast (Nat.lt_trans (Nat.lt_succ_self _) hlt), ?_⟩
    rw [readItems, hread]
    simp only [hitems]
    rfl

theorem ReadsMembers.readMembers_eq {limit : Nat} {ts rest : List Token}
    {members : List (Option String × Document)} :
    ReadsMembers limit ts members rest →
      ∃ h, readMembers limit ts = (members, .closed, some ⟨rest, h⟩)
  | .one h => by
    obtain ⟨hlt, hread⟩ := h.readValue_eq
    refine ⟨by simp only [List.length_cons] at hlt ⊢; omega, ?_⟩
    rw [readMembers, hread]
    rfl
  | .cons h hmore => by
    obtain ⟨hlt, hread⟩ := h.readValue_eq
    obtain ⟨hlast, hmembers⟩ := hmore.readMembers_eq
    refine ⟨by simp only [List.length_cons] at hlt ⊢; omega, ?_⟩
    rw [readMembers, hread]
    simp only [hmembers]
    rfl
end

/-- **Values are read as the grammar of tokens has them.** -/
theorem readValue_eq_iff {limit : Nat} {ts rest : List Token} {d : Document} :
    (∃ h, readValue limit ts = (d, some ⟨rest, h⟩)) ↔ Reads limit ts d rest :=
  ⟨fun ⟨_, h⟩ => reads_of_readValue h, Reads.readValue_eq⟩

theorem Reads.exists_pieces {limit : Nat} {ts rest : List Token} {key : Option String}
    (h : Reads limit ts (.text key) rest) :
    ∃ pieces, content pieces = key ∧ ts = .string pieces :: rest := by
  generalize hd : Document.text key = d at h
  cases h <;> cases hd
  exact ⟨_, rfl, rfl⟩

mutual
/-- The reader never goes past a fault. -/
theorem Reads.fault_mem {limit : Nat} {ts rest : List Token} {d : Document} :
    Reads limit ts d rest → .fault ∈ ts → .fault ∈ rest
  | .null, h | .bool, h | .number, h | .text, h | .emptyArray, h | .emptyObject, h => by
    simpa using h
  | .array hitems, h => hitems.fault_mem (by simpa using h)
  | .object hmembers, h => hmembers.fault_mem (by simpa using h)

theorem ReadsItems.fault_mem {limit : Nat} {ts rest : List Token} {items : List Document} :
    ReadsItems limit ts items rest → .fault ∈ ts → .fault ∈ rest
  | .one hd, h => by simpa using hd.fault_mem h
  | .cons hd hmore, h => hmore.fault_mem (by simpa using hd.fault_mem h)

theorem ReadsMembers.fault_mem {limit : Nat} {ts rest : List Token}
    {members : List (Option String × Document)} :
    ReadsMembers limit ts members rest → .fault ∈ ts → .fault ∈ rest
  | .one hd, h => by simpa using hd.fault_mem (by simpa using h)
  | .cons hd hmore, h => hmore.fault_mem (by simpa using hd.fault_mem (by simpa using h))
end

end Document

/-! ## From texts to documents -/

theorem Spaces.stopsAt {spaces rest : List Char} (h : Spaces spaces)
    (hrest : StopsAt extendsNumeral rest) : StopsAt extendsNumeral (spaces ++ rest) := by
  cases spaces with
  | nil => exact hrest
  | cons c cs =>
    have hc := h c (.head _)
    simp only [isSpace, Bool.or_eq_true, beq_iff_eq] at hc
    rcases hc with ((rfl | rfl) | rfl) | rfl <;> exact .cons (by decide)

theorem stopsAt_mark {c : Char} (h : extendsNumeral c = false) (rest : List Char) :
    StopsAt extendsNumeral (c :: rest) :=
  .cons h

section

open Document

mutual
theorem ValueText.reads {d : Document} {cs : List Char} : ValueText d cs →
    ∀ {limit : Nat} {rest : List Char}, d.nesting ≤ limit → StopsAt extendsNumeral rest →
      Reads limit (tokens (cs ++ rest)) d (tokens rest)
  | .null, _, _, _, hrest => TokenText.null.tokens_append hrest ▸ .null
  | .true, _, _, _, hrest => TokenText.true.tokens_append hrest ▸ .bool
  | .false, _, _, _, hrest => TokenText.false.tokens_append hrest ▸ .bool
  | .number h, _, _, _, hrest => (TokenText.number h).tokens_append hrest ▸ .number
  | .string (s := s) h, _, _, _, hrest => by
    obtain ⟨pieces, hpieces, hjoin⟩ := h.exists_pieces
    have hcontent : content pieces = some s := by
      rw [content, hjoin, Option.map_some, String.ofList_toList]
    rw [(TokenText.string hpieces).tokens_append hrest, ← hcontent]
    exact .text
  | .emptyArray h, _ + 1, rest, _, _ => by
    rw [List.cons_append, List.append_assoc, tokens_cons (by decide), lexOne, tokens_spaces h,
      List.singleton_append, tokens_cons (by decide), lexOne]
    exact .emptyArray
  | .array h, _ + 1, rest, hlimit, _ => by
    rw [List.cons_append, List.append_assoc, tokens_cons (by decide), lexOne, List.singleton_append]
    exact .array (h.reads rest (Nat.le_of_succ_le_succ hlimit))
  | .emptyObject h, _ + 1, rest, _, _ => by
    rw [List.cons_append, List.append_assoc, tokens_cons (by decide), lexOne, tokens_spaces h,
      List.singleton_append, tokens_cons (by decide), lexOne]
    exact .emptyObject
  | .object h, _ + 1, rest, hlimit, _ => by
    rw [List.cons_append, List.append_assoc, tokens_cons (by decide), lexOne, List.singleton_append]
    exact .object (h.reads rest (Nat.le_of_succ_le_succ hlimit))

theorem PaddedText.reads {d : Document} {cs : List Char} : PaddedText d cs →
    ∀ {limit : Nat} {rest : List Char}, d.nesting ≤ limit → StopsAt extendsNumeral rest →
      Reads limit (tokens (cs ++ rest)) d (tokens rest)
  | .mk hlead h htrail, _, _, hlimit, hrest => by
    have hread := h.reads hlimit (htrail.stopsAt hrest)
    rw [tokens_spaces htrail] at hread
    simp only [List.append_assoc]
    rwa [tokens_spaces hlead]

theorem ItemsText.reads {items : List Document} {cs : List Char} : ItemsText items cs →
    ∀ {limit : Nat} (rest : List Char), nestingItems items ≤ limit →
      ReadsItems limit (tokens (cs ++ ']' :: rest)) items (tokens rest)
  | .one h, _, rest, hlimit => by
    have hread := h.reads (Nat.le_trans (Nat.le_max_left ..) hlimit)
      (stopsAt_mark (c := ']') (by decide) rest)
    rw [tokens_cons (by decide), lexOne] at hread
    exact .one hread
  | @ItemsText.cons _ _ _ more h hmore, _, rest, hlimit => by
    have hread := h.reads (Nat.le_trans (Nat.le_max_left ..) hlimit)
      (stopsAt_mark (c := ',') (by decide) (more ++ ']' :: rest))
    rw [tokens_cons (by decide), lexOne] at hread
    rw [List.append_assoc, List.cons_append]
    exact .cons hread (hmore.reads rest (Nat.le_trans (Nat.le_max_right ..) hlimit))

theorem MembersText.reads {members : List (Option String × Document)} {cs : List Char} :
    MembersText members cs → ∀ {limit : Nat} (rest : List Char), nestingMembers members ≤ limit →
      ReadsMembers limit (tokens (cs ++ '\x7d' :: rest)) members (tokens rest)
  | @MembersText.one _ _ _ cs hkey h, limit, rest, hlimit => by
    have hread := h.reads (Nat.le_trans (Nat.le_max_left ..) hlimit)
      (stopsAt_mark (c := '\x7d') (by decide) rest)
    rw [tokens_cons (by decide), lexOne] at hread
    have hread' := hkey.reads (Nat.zero_le limit)
      (stopsAt_mark (c := ':') (by decide) (cs ++ '\x7d' :: rest))
    obtain ⟨pieces, hcontent, htokens⟩ := hread'.exists_pieces
    rw [tokens_cons (by decide), lexOne] at htokens
    rw [List.append_assoc, List.cons_append, htokens, ← hcontent]
    exact .one hread
  | @MembersText.cons _ _ _ _ cs more hkey h hmore, limit, rest, hlimit => by
    have hread := h.reads (Nat.le_trans (Nat.le_max_left ..) hlimit)
      (stopsAt_mark (c := ',') (by decide) (more ++ '\x7d' :: rest))
    rw [tokens_cons (by decide), lexOne] at hread
    have hread' := hkey.reads (Nat.zero_le limit)
      (stopsAt_mark (c := ':') (by decide) (cs ++ ',' :: (more ++ '\x7d' :: rest)))
    obtain ⟨pieces, hcontent, htokens⟩ := hread'.exists_pieces
    rw [tokens_cons (by decide), lexOne] at htokens
    simp only [List.append_assoc, List.cons_append]
    rw [htokens, ← hcontent]
    exact .cons hread (hmore.reads rest (Nat.le_trans (Nat.le_max_right ..) hlimit))
end

/-! ## From documents to texts -/

variable {t : Token} {c : Char} {cs : List Char} {ts rest : List Token} {limit : Nat}

/-- A token that is written in one way only is that character, with white space in front of it. -/
theorem exists_mark (h : tokens cs = t :: rest) (ht : t ≠ .fault)
    (hmark : ∀ text, TokenText t text → text = [c]) :
    ∃ lead more, Spaces lead ∧ cs = lead ++ c :: more ∧ tokens more = rest := by
  obtain ⟨lead, text, more, hlead, htext, rfl, hmore⟩ := exists_word h ht
  obtain rfl := hmark text htext
  exact ⟨lead, more, hlead, rfl, hmore⟩

/-- What the reader took for the document is a text of it, behind white space. -/
def Leads (cs : List Char) (d : Document) (rest : List Token) : Prop :=
  ∃ lead text more, Spaces lead ∧ ValueText d text ∧ cs = lead ++ (text ++ more) ∧ tokens more = rest

theorem leads_of_word {d : Document} (h : tokens cs = t :: rest) (ht : t ≠ .fault)
    (hvalue : ∀ text, TokenText t text → ValueText d text) : Leads cs d rest := by
  obtain ⟨lead, text, more, hlead, htext, rfl, hmore⟩ := exists_word h ht
  exact ⟨lead, text, more, hlead, hvalue text htext, rfl, hmore⟩

theorem leads_of_string {pieces : List Piece} (h : tokens cs = .string pieces :: rest)
    (hcontent : (content pieces).isSome) : Leads cs (.text (content pieces)) rest := by
  obtain ⟨s, hs⟩ := Option.isSome_iff_exists.1 hcontent
  obtain ⟨chars, hjoin, rfl⟩ := Option.map_eq_some_iff.1 hs
  rw [hs]
  refine leads_of_word h nofun fun _ htext => ?_
  cases htext with
  | string htext => exact .string (String.toList_ofList ▸ htext.charsText hjoin)

/-- Up to a mark that follows it, there is white space on both sides. -/
theorem Leads.padded {d : Document} (h : Leads cs d (t :: rest)) (ht : t ≠ .fault)
    (hmark : ∀ text, TokenText t text → text = [c]) :
    ∃ text more, PaddedText d text ∧ cs = text ++ c :: more ∧ tokens more = rest := by
  obtain ⟨lead, text, more, hlead, htext, rfl, hmore⟩ := h
  obtain ⟨trail, more, htrail, rfl, hrest⟩ := exists_mark hmore ht hmark
  exact ⟨_, more, .mk hlead htext htrail, by simp only [List.append_assoc], hrest⟩

mutual
theorem leads_of_reads {limit : Nat} {ts rest : List Token} {d : Document} : Reads limit ts d rest →
    ∀ {cs : List Char}, tokens cs = ts → d.Joined → d.nesting ≤ limit ∧ Leads cs d rest
  | .null, cs, hcs, _ => ⟨Nat.zero_le _, leads_of_word hcs nofun fun _ h => by cases h; exact .null⟩
  | .bool, cs, hcs, _ =>
    ⟨Nat.zero_le _, leads_of_word hcs nofun fun _ h => by cases h; exacts [.true, .false]⟩
  | .number, cs, hcs, _ =>
    ⟨Nat.zero_le _, leads_of_word hcs nofun fun _ h => by cases h with | number h => exact .number h⟩
  | .text, cs, hcs, hjoined => ⟨Nat.zero_le _, leads_of_string hcs hjoined⟩
  | .emptyArray, cs, hcs, _ => by
    obtain ⟨lead, more, hlead, rfl, hmore⟩ := exists_mark hcs nofun fun _ h => by cases h; rfl
    obtain ⟨inner, more, hinner, rfl, hrest⟩ := exists_mark hmore nofun fun _ h => by cases h; rfl
    refine ⟨Nat.succ_le_succ (Nat.zero_le _), lead, _, more, hlead, .emptyArray hinner, ?_, hrest⟩
    simp
  | .array h, cs, hcs, hjoined => by
    obtain ⟨lead, more, hlead, rfl, hmore⟩ := exists_mark hcs nofun fun _ h => by cases h; rfl
    obtain ⟨hnesting, text, more, hitems, rfl, hrest⟩ := exists_itemsText h hmore hjoined
    refine ⟨Nat.succ_le_succ hnesting, lead, _, more, hlead, .array hitems, ?_, hrest⟩
    simp
  | .emptyObject, cs, hcs, _ => by
    obtain ⟨lead, more, hlead, rfl, hmore⟩ := exists_mark hcs nofun fun _ h => by cases h; rfl
    obtain ⟨inner, more, hinner, rfl, hrest⟩ := exists_mark hmore nofun fun _ h => by cases h; rfl
    refine ⟨Nat.succ_le_succ (Nat.zero_le _), lead, _, more, hlead, .emptyObject hinner, ?_, hrest⟩
    simp
  | .object h, cs, hcs, hjoined => by
    obtain ⟨lead, more, hlead, rfl, hmore⟩ := exists_mark hcs nofun fun _ h => by cases h; rfl
    obtain ⟨hnesting, text, more, hmembers, rfl, hrest⟩ := exists_membersText h hmore hjoined
    refine ⟨Nat.succ_le_succ hnesting, lead, _, more, hlead, .object hmembers, ?_, hrest⟩
    simp

theorem exists_itemsText {limit : Nat} {ts rest : List Token} {items : List Document} :
    ReadsItems limit ts items rest → ∀ {cs : List Char}, tokens cs = ts → JoinedItems items →
      nestingItems items ≤ limit ∧
        ∃ text more, ItemsText items text ∧ cs = text ++ ']' :: more ∧ tokens more = rest
  | .one h, cs, hcs, hjoined => by
    obtain ⟨hnesting, hd⟩ := leads_of_reads h hcs hjoined.1
    obtain ⟨text, more, htext, rfl, hrest⟩ := hd.padded nofun fun _ h => by cases h; rfl
    exact ⟨Nat.max_le.2 ⟨hnesting, Nat.zero_le _⟩, text, more, .one htext, rfl, hrest⟩
  | .cons h hmore, cs, hcs, hjoined => by
    obtain ⟨hnesting, hd⟩ := leads_of_reads h hcs hjoined.1
    obtain ⟨text, after, htext, rfl, hafter⟩ := hd.padded nofun fun _ h => by cases h; rfl
    obtain ⟨hnestings, texts, more, htexts, rfl, hrest⟩ := exists_itemsText hmore hafter hjoined.2
    refine ⟨Nat.max_le.2 ⟨hnesting, hnestings⟩, _, more, .cons htext htexts, ?_, hrest⟩
    simp

theorem exists_membersText {limit : Nat} {ts rest : List Token}
    {members : List (Option String × Document)} : ReadsMembers limit ts members rest →
      ∀ {cs : List Char}, tokens cs = ts → JoinedMembers members →
        nestingMembers members ≤ limit ∧
          ∃ text more, MembersText members text ∧ cs = text ++ '\x7d' :: more ∧ tokens more = rest
  | .one h, cs, hcs, ⟨hkey, hjoined, _⟩ => by
    obtain ⟨ks, after, hks, rfl, hafter⟩ := (leads_of_string hcs hkey).padded nofun fun _ h => by
      cases h; rfl
    obtain ⟨hnesting, hd⟩ := leads_of_reads h hafter hjoined
    obtain ⟨text, more, htext, rfl, hrest⟩ := hd.padded nofun fun _ h => by cases h; rfl
    obtain ⟨key, hkey⟩ := Option.isSome_iff_exists.1 hkey
    rw [hkey] at hks ⊢
    exact ⟨Nat.max_le.2 ⟨hnesting, Nat.zero_le _⟩, _, more, .one hks htext, by simp, hrest⟩
  | .cons h hmore, cs, hcs, ⟨hkey, hjoined, hjoineds⟩ => by
    obtain ⟨ks, after, hks, rfl, hafter⟩ := (leads_of_string hcs hkey).padded nofun fun _ h => by
      cases h; rfl
    obtain ⟨hnesting, hd⟩ := leads_of_reads h hafter hjoined
    obtain ⟨text, later, htext, rfl, hlater⟩ := hd.padded nofun fun _ h => by cases h; rfl
    obtain ⟨hnestings, texts, more, htexts, rfl, hrest⟩ := exists_membersText hmore hlater hjoineds
    obtain ⟨key, hkey⟩ := Option.isSome_iff_exists.1 hkey
    rw [hkey] at hks ⊢
    refine ⟨Nat.max_le.2 ⟨hnesting, hnestings⟩, _, more, .cons hks htext htexts, ?_, hrest⟩
    simp
end

end

/-! ## Whole texts -/

mutual
theorem ValueText.joined {d : Document} {cs : List Char} : ValueText d cs → d.Joined
  | .null | .true | .false | .number _ => trivial
  | .string _ => rfl
  | .emptyArray _ | .emptyObject _ => trivial
  | .array h => h.joined
  | .object h => h.joined

theorem PaddedText.joined {d : Document} {cs : List Char} : PaddedText d cs → d.Joined
  | .mk _ h _ => h.joined

theorem ItemsText.joined {items : List Document} {cs : List Char} :
    ItemsText items cs → Document.JoinedItems items
  | .one h => ⟨h.joined, trivial⟩
  | .cons h hmore => ⟨h.joined, hmore.joined⟩

theorem MembersText.joined {members : List (Option String × Document)} {cs : List Char} :
    MembersText members cs → Document.JoinedMembers members
  | .one _ h => ⟨rfl, h.joined, trivial⟩
  | .cons _ h hmore => ⟨rfl, h.joined, hmore.joined⟩
end

namespace Reading

theorem ofTokens_eq_iff {limit : Nat} {ts : List Token} {d : Document} :
    ofTokens limit ts = ⟨d, true⟩ ↔ Document.Reads limit ts d [] := by
  rw [← Document.readValue_eq_iff, ofTokens]
  constructor
  · intro h
    split at h
    · rename_i hread
      cases h
      exact ⟨_, hread⟩
    · cases h
  · rintro ⟨hlt, hread⟩
    rw [hread]

theorem ofTokens_tokens_iff {limit : Nat} {cs : List Char} {d : Document} :
    (ofTokens limit (tokens cs) = ⟨d, true⟩ ∧ d.Joined) ↔ PaddedText d cs ∧ d.nesting ≤ limit := by
  rw [ofTokens_eq_iff]
  constructor
  · rintro ⟨hreads, hjoined⟩
    obtain ⟨hnesting, lead, text, more, hlead, htext, rfl, hmore⟩ :=
      leads_of_reads hreads rfl hjoined
    exact ⟨.mk hlead htext (spaces_of_tokens hmore), hnesting⟩
  · rintro ⟨h, hnesting⟩
    have hreads := h.reads hnesting StopsAt.nil
    rw [List.append_nil, tokens] at hreads
    exact ⟨hreads, h.joined⟩

/-- **A whole text is read as the document that it is JSON for**, if that does not nest too deep. -/
theorem ofText_eq_iff {limit : Nat} {text : String} {d : Document} :
    (ofText limit text = ⟨d, true⟩ ∧ d.Joined) ↔ Spells d text ∧ d.nesting ≤ limit :=
  ofTokens_tokens_iff

/-- **Bytes are read whole as the document that their text is JSON for.** -/
theorem ofBytes_eq_iff {limit : Nat} {bytes : List UInt8} {d : Document} :
    (ofBytes limit bytes = ⟨d, true⟩ ∧ d.Joined) ↔
      ∃ cs, bytes = Text.Utf8.encode cs ∧ PaddedText d cs ∧ d.nesting ≤ limit := by
  constructor
  · rintro ⟨hread, hjoined⟩
    rw [ofBytes] at hread
    split at hread
    · rename_i cs hdecode
      exact ⟨cs, Text.Utf8.decodeStrict_eq_iff.1 hdecode, ofTokens_tokens_iff.1 ⟨hread, hjoined⟩⟩
    · -- the reader would have gone past the place where the bytes break off
      have hfault := (ofTokens_eq_iff.1 hread).fault_mem (by simp)
      cases hfault
  · rintro ⟨cs, rfl, h⟩
    rw [ofBytes, Text.Utf8.decodeStrict_encode]
    exact ofTokens_tokens_iff.2 h

end Reading

/-- A text is JSON for one document at most. -/
theorem Spells.eq {d d' : Document} {text : String} (h : Spells d text) (h' : Spells d' text) :
    d = d' := by
  have hread := (Reading.ofText_eq_iff.2 ⟨h, Nat.le_max_left d.nesting d'.nesting⟩).1
  have hread' := (Reading.ofText_eq_iff.2 ⟨h', Nat.le_max_right d.nesting d'.nesting⟩).1
  exact congrArg Reading.document (hread.symm.trans hread')

end TorrentControl.Json

import TorrentControl.Proofs.Json.Numeral
import TorrentControl.Proofs.Text.Hex
import TorrentControl.Proofs.Text.Utf8

/-! # Words and their tokens

The reader cuts a text into the tokens of its words. The token of a string has the pieces that the
string is made of, of which the halves of surrogate pairs are joined only when the string is used:
then the characters come out that the grammar has for it, or none. -/

namespace TorrentControl

namespace Json

/-! ## Strings -/

theorem escaped?_eq_some_iff {e c : Char} : escaped? e = some c ↔ (e, c) ∈ letterEscapes := by
  unfold escaped?
  split <;> simp_all [letterEscapes, eq_comm]

/-- What a piece of a string is written as. -/
inductive PieceText : Piece → List Char → Prop where
  | plain {c : Char} (h : Plain c) : PieceText (.char c) [c]
  | letter {e c : Char} (h : (e, c) ∈ letterEscapes) : PieceText (.char c) ['\\', e]
  | unit {a b c d : Char} {unit : Nat} (h : unit? a b c d = some unit) :
      PieceText (pieceOfUnit unit) ['\\', 'u', a, b, c, d]

inductive PiecesText : List Piece → List Char → Prop where
  | nil : PiecesText [] []
  | cons {piece : Piece} {pieces : List Piece} {text more : List Char} (hpiece : PieceText piece text)
      (hmore : PiecesText pieces more) : PiecesText (piece :: pieces) (text ++ more)

section

variable {piece : Piece} {pieces : List Piece} {text cs rest : List Char} {c : Char}

theorem lexString_piece (h : PieceText piece text) (rest : List Char) :
    lexString (text ++ rest) =
      (lexString rest).map fun (pieces, more) => (piece :: pieces, more) := by
  cases h with
  | @plain c h =>
    have hnot : ¬(c.toNat < 0x20 ∨ c = '\\') := fun hor =>
      hor.elim (Nat.not_lt.2 h.printable) h.not_slash
    rw [List.singleton_append, lexString.eq_5 c rest h.not_quote
      (fun _ _ _ _ _ hu => absurd hu h.not_slash) (fun _ _ hu => absurd hu h.not_slash), if_neg hnot]
    cases lexString rest <;> rfl
  | @letter e c h =>
    have hne : e ≠ 'u' := by
      rintro rfl
      simp [letterEscapes] at h
    have hescaped := escaped?_eq_some_iff.2 h
    rw [List.cons_append, List.singleton_append,
      lexString.eq_4 e rest (fun _ _ _ _ _ hu => absurd hu hne), hescaped]
    cases lexString rest <;> rfl
  | unit h =>
    simp only [List.cons_append, List.nil_append, lexString, h, Option.bind_eq_bind,
      Option.bind_some, Option.pure_def]
    cases lexString rest <;> rfl

theorem lexString_append (h : PiecesText pieces text) (rest : List Char) :
    lexString (text ++ '"' :: rest) = some (pieces, rest) := by
  induction h with
  | nil => rfl
  | cons hpiece _ ih => rw [List.append_assoc, lexString_piece hpiece, ih, Option.map_some]

theorem lexString_eq_some (h : lexString cs = some (pieces, rest)) :
    ∃ text, PiecesText pieces text ∧ cs = text ++ '"' :: rest := by
  fun_induction lexString cs generalizing pieces with
  | case1 => cases h
  | case2 more =>
    cases h
    exact ⟨[], .nil, rfl⟩
  | case3 a b c d more ih =>
    simp only [Option.bind_eq_bind, Option.bind_eq_some_iff, Option.pure_def, Option.some.injEq,
      Prod.mk.injEq, Prod.exists] at h
    obtain ⟨unit, hunit, pieces, _, hmore, rfl, rfl⟩ := h
    obtain ⟨text, htext, rfl⟩ := ih hmore
    exact ⟨_, .cons (.unit hunit) htext, rfl⟩
  | case4 e more _ ih =>
    simp only [Option.bind_eq_bind, Option.bind_eq_some_iff, Option.pure_def, Option.some.injEq,
      Prod.mk.injEq, Prod.exists] at h
    obtain ⟨c, hescaped, pieces, _, hmore, rfl, rfl⟩ := h
    obtain ⟨text, htext, rfl⟩ := ih hmore
    exact ⟨_, .cons (.letter (escaped?_eq_some_iff.1 hescaped)) htext, rfl⟩
  | case5 => cases h
  | case6 c more hquote _ _ hplain ih =>
    simp only [Option.bind_eq_bind, Option.bind_eq_some_iff, Option.pure_def, Option.some.injEq,
      Prod.mk.injEq, Prod.exists] at h
    obtain ⟨pieces, _, hmore, rfl, rfl⟩ := h
    obtain ⟨text, htext, rfl⟩ := ih hmore
    rw [not_or, Nat.not_lt] at hplain
    exact ⟨_, .cons (.plain ⟨hplain.1, hquote, hplain.2⟩) htext, rfl⟩

/-! ### Units and characters -/

theorem unit?_lt {a b c d : Char} {unit : Nat} (h : unit? a b c d = some unit) : unit < 0x10000 := by
  simp only [unit?, Option.bind_eq_bind, Option.bind_eq_some_iff, Option.pure_def,
    Option.some.injEq] at h
  obtain ⟨_, ha, _, hb, _, hc, _, hd, rfl⟩ := h
  have := Text.Hex.digitValue?_lt ha
  have := Text.Hex.digitValue?_lt hb
  have := Text.Hex.digitValue?_lt hc
  have := Text.Hex.digitValue?_lt hd
  omega

/-- A unit is a half, or it is a character. -/
theorem pieceOfUnit_cases {unit : Nat} (h : unit < 0x10000) :
    (pieceOfUnit unit = .half unit ∧ 0xD800 ≤ unit ∧ unit < 0xE000) ∨
      ∃ c : Char, pieceOfUnit unit = .char c ∧ c.toNat = unit := by
  unfold pieceOfUnit
  split
  · rename_i hhalf
    simp only [isLeadingHalf, isTrailingHalf, Bool.or_eq_true, Bool.and_eq_true,
      decide_eq_true_eq] at hhalf
    exact .inl ⟨rfl, by omega⟩
  · rename_i hwhole
    simp only [isLeadingHalf, isTrailingHalf, Bool.or_eq_true, Bool.and_eq_true,
      decide_eq_true_eq] at hwhole
    have hvalid : unit.isValidChar := by
      unfold Nat.isValidChar
      omega
    exact .inr ⟨_, rfl, Text.Utf8.toNat_charOfNat hvalid⟩

/-- No character is a half. -/
theorem pieceOfUnit_toNat (c : Char) : pieceOfUnit c.toNat = .char c := by
  have hvalid : c.toNat < 0xD800 ∨ (0xDFFF < c.toNat ∧ c.toNat < 0x110000) := c.valid
  have hleading : isLeadingHalf c.toNat = false := by simp [isLeadingHalf]; omega
  have htrailing : isTrailingHalf c.toNat = false := by simp [isTrailingHalf]; omega
  rw [pieceOfUnit, hleading, htrailing, Char.ofNat_toNat]
  rfl

theorem isHalf_utf16 {c : Char} (h : 0x10000 ≤ c.toNat) :
    isLeadingHalf (0xD800 + (c.toNat - 0x10000) / 0x400) = true ∧
      isTrailingHalf (0xDC00 + (c.toNat - 0x10000) % 0x400) = true := by
  have hvalid : c.toNat < 0xD800 ∨ (0xDFFF < c.toNat ∧ c.toNat < 0x110000) := c.valid
  simp only [isLeadingHalf, isTrailingHalf, Bool.and_eq_true, decide_eq_true_eq]
  omega

theorem toNat_joinHalves {leading trailing : Nat} (hl : isLeadingHalf leading = true)
    (ht : isTrailingHalf trailing = true) :
    (joinHalves leading trailing).toNat =
      0x10000 + (leading - 0xD800) * 0x400 + (trailing - 0xDC00) := by
  simp only [isLeadingHalf, isTrailingHalf, Bool.and_eq_true, decide_eq_true_eq] at hl ht
  refine Text.Utf8.toNat_charOfNat ?_
  unfold Nat.isValidChar
  omega

/-- Two halves that belong together are the character's units. -/
theorem utf16_joinHalves {leading trailing : Nat} (hl : isLeadingHalf leading = true)
    (ht : isTrailingHalf trailing = true) :
    utf16 (joinHalves leading trailing) = [leading, trailing] := by
  have hnat := toNat_joinHalves hl ht
  simp only [isLeadingHalf, isTrailingHalf, Bool.and_eq_true, decide_eq_true_eq] at hl ht
  rw [utf16, if_neg (by omega), hnat]
  simp only [List.cons.injEq, and_true]
  omega

/-- The units of a character that has two are halves that are joined to it. -/
theorem joinHalves_utf16 {c : Char} (h : 0x10000 ≤ c.toNat) :
    joinHalves (0xD800 + (c.toNat - 0x10000) / 0x400) (0xDC00 + (c.toNat - 0x10000) % 0x400) = c := by
  have hnat : 0x10000 + (0xD800 + (c.toNat - 0x10000) / 0x400 - 0xD800) * 0x400 +
      (0xDC00 + (c.toNat - 0x10000) % 0x400 - 0xDC00) = c.toNat := by omega
  rw [joinHalves, hnat, Char.ofNat_toNat]

theorem pieceOfUnit_half {unit : Nat} (h : isLeadingHalf unit = true ∨ isTrailingHalf unit = true) :
    pieceOfUnit unit = .half unit :=
  if_pos (by simpa using h)

theorem joinPieces_halves {leading trailing : Nat} (hl : isLeadingHalf leading = true)
    (ht : isTrailingHalf trailing = true) (more : List Piece) :
    joinPieces (.half leading :: .half trailing :: more) =
      (joinPieces more).map (joinHalves leading trailing :: ·) := by
  rw [joinPieces, if_pos ⟨hl, ht⟩]

/-! ### Pieces and characters -/

theorem PieceText.charText (h : PieceText (.char c) text) : CharText c text := by
  generalize hpiece : Piece.char c = piece at h
  cases h with
  | plain h =>
    cases hpiece
    exact .plain h
  | letter h =>
    cases hpiece
    exact .letter h
  | unit h =>
    rcases pieceOfUnit_cases (unit?_lt h) with ⟨hhalf, -, -⟩ | ⟨c', hchar, rfl⟩
    · rw [hhalf] at hpiece
      cases hpiece
    · rw [hchar] at hpiece
      cases hpiece
      have hunits : utf16 c = [c.toNat] := if_pos (unit?_lt h)
      exact .units (hunits ▸ .cons h .nil)

theorem PieceText.unitEscapes {unit : Nat} (h : PieceText (.half unit) text) :
    UnitEscapes [unit] text := by
  generalize hpiece : Piece.half unit = piece at h
  cases h with
  | plain h => cases hpiece
  | letter h => cases hpiece
  | unit h =>
    rcases pieceOfUnit_cases (unit?_lt h) with ⟨hhalf, -, -⟩ | ⟨c, hchar, -⟩
    · rw [hhalf] at hpiece
      cases hpiece
      exact .cons h .nil
    · rw [hchar] at hpiece
      cases hpiece

theorem UnitEscapes.append {units units' : List Nat} {text text' : List Char}
    (h : UnitEscapes units text) (h' : UnitEscapes units' text') :
    UnitEscapes (units ++ units') (text ++ text') := by
  induction h with
  | nil => exact h'
  | cons hunit _ ih => exact .cons hunit ih

theorem CharText.exists_pieces (h : CharText c text) : ∃ pieces, PiecesText pieces text ∧
    ∀ more, joinPieces (pieces ++ more) = (joinPieces more).map (c :: ·) := by
  cases h with
  | plain h => exact ⟨_, .cons (.plain h) .nil, fun _ => rfl⟩
  | letter h => exact ⟨_, .cons (.letter h) .nil, fun _ => rfl⟩
  | units h =>
    unfold utf16 at h
    split at h
    · cases h with
      | cons hunit hmore =>
        cases hmore
        refine ⟨_, .cons (.unit hunit) .nil, fun more => ?_⟩
        rw [pieceOfUnit_toNat]
        rfl
    · rename_i hhigh
      have hhalves := isHalf_utf16 (Nat.not_lt.1 hhigh)
      have hjoin := joinHalves_utf16 (Nat.not_lt.1 hhigh)
      generalize 0xD800 + (c.toNat - 0x10000) / 0x400 = leading at h hhalves hjoin
      generalize 0xDC00 + (c.toNat - 0x10000) % 0x400 = trailing at h hhalves hjoin
      cases h with
      | cons hleading hmore =>
        cases hmore with
        | cons htrailing hmore =>
          cases hmore
          refine ⟨_, .cons (.unit hleading) (.cons (.unit htrailing) .nil), fun more => ?_⟩
          rw [pieceOfUnit_half (.inl hhalves.1), pieceOfUnit_half (.inr hhalves.2), List.cons_append,
            List.cons_append, joinPieces_halves hhalves.1 hhalves.2, hjoin, List.nil_append]

theorem PiecesText.append {pieces' : List Piece} {text' : List Char} (h : PiecesText pieces text)
    (h' : PiecesText pieces' text') : PiecesText (pieces ++ pieces') (text ++ text') := by
  induction h with
  | nil => exact h'
  | cons hpiece _ ih =>
    rw [List.cons_append, List.append_assoc]
    exact .cons hpiece ih

theorem CharsText.exists_pieces (h : CharsText cs text) :
    ∃ pieces, PiecesText pieces text ∧ joinPieces pieces = some cs := by
  induction h with
  | nil => exact ⟨[], .nil, rfl⟩
  | cons hc _ ih =>
    obtain ⟨pieces, hpieces, hjoin⟩ := hc.exists_pieces
    obtain ⟨more, hmore, hcs⟩ := ih
    refine ⟨pieces ++ more, hpieces.append hmore, ?_⟩
    rw [hjoin, hcs, Option.map_some]

/-- Pieces that can be joined are the characters' text. -/
theorem PiecesText.charsText (h : PiecesText pieces text) (hjoin : joinPieces pieces = some cs) :
    CharsText cs text := by
  fun_induction joinPieces pieces generalizing cs text with
  | case1 =>
    cases hjoin
    cases h
    exact .nil
  | case2 c more ih =>
    obtain ⟨cs, hmore, rfl⟩ := Option.map_eq_some_iff.1 hjoin
    cases h with
    | cons hpiece htext => exact .cons hpiece.charText (ih htext hmore)
  | case3 leading trailing more hhalves ih =>
    obtain ⟨cs, hmore, rfl⟩ := Option.map_eq_some_iff.1 hjoin
    cases h with
    | cons hleading htext =>
      cases htext with
      | cons htrailing htext =>
        have hunits := hleading.unitEscapes.append htrailing.unitEscapes
        rw [← List.append_assoc]
        refine .cons (.units ?_) (ih htext hmore)
        rw [utf16_joinHalves hhalves.1 hhalves.2]
        exact hunits
  | case4 => cases hjoin
  | case5 => cases hjoin

end

/-! ## Tokens -/

theorem tokens_cons {c : Char} (h : isSpace c = false) (rest : List Char) :
    tokens (c :: rest) = (lexOne c rest).1 :: tokens (lexOne c rest).2 := by
  rw [tokens, if_neg (by simp [h])]

theorem tokens_spaces {spaces : List Char} (h : Spaces spaces) (rest : List Char) :
    tokens (spaces ++ rest) = tokens rest := by
  induction spaces with
  | nil => rfl
  | cons c cs ih =>
    obtain ⟨hc, hcs⟩ := List.forall_mem_cons.1 h
    rw [List.cons_append, tokens, if_pos hc, ih hcs]

/-- The words of the grammar, each with its token. -/
inductive TokenText : Token → List Char → Prop where
  | openBrace : TokenText .openBrace ['\x7b']
  | closeBrace : TokenText .closeBrace ['\x7d']
  | openBracket : TokenText .openBracket ['[']
  | closeBracket : TokenText .closeBracket [']']
  | colon : TokenText .colon [':']
  | comma : TokenText .comma [',']
  | null : TokenText .null ['n', 'u', 'l', 'l']
  | true : TokenText (.bool true) ['t', 'r', 'u', 'e']
  | false : TokenText (.bool false) ['f', 'a', 'l', 's', 'e']
  | number {n : Numeral} {cs : List Char} (h : n.Spells cs) : TokenText (.number n) cs
  | string {pieces : List Piece} {text : List Char} (h : PiecesText pieces text) :
      TokenText (.string pieces) ('"' :: (text ++ ['"']))

section

variable {t : Token} {ts : List Token} {c : Char} {cs text rest : List Char} {n : Numeral}

theorem tokens_word {token : Token} {word : List Char} (hspace : isSpace c = false)
    (rest : List Char) (hone : lexOne c (word ++ rest) = lexWord token word (word ++ rest)) :
    tokens (c :: word ++ rest) = token :: tokens rest := by
  have hprefix : word.isPrefixOf (word ++ rest) = true := by
    simp [List.isPrefixOf_iff_prefix]
  rw [List.cons_append, tokens_cons hspace, hone, lexWord, if_pos hprefix, List.drop_left]

theorem lexOne_digit {c : Char} (h : isDigit c = true) (rest : List Char) :
    lexOne c rest = orFault .number (lexNumber false (c :: rest)) := by
  unfold lexOne
  split
  case h_12 => exact if_pos h
  all_goals exact absurd h (by decide)

theorem isSpace_of_isDigit {c : Char} (h : isDigit c = true) : isSpace c = false := by
  cases hs : isSpace c with
  | false => rfl
  | true =>
    simp only [isSpace, Bool.or_eq_true, beq_iff_eq] at hs
    rcases hs with ((rfl | rfl) | rfl) | rfl <;> exact absurd h (by decide)

theorem tokens_number (h : n.Spells text) (hrest : StopsAt extendsNumeral rest) :
    tokens (text ++ rest) = .number n :: tokens rest := by
  obtain @⟨exponent, hformed, hexponent⟩ := h
  have hread := n.lexNumber_append hformed hexponent hrest
  unfold Numeral.signText
  cases hsign : n.negative with
  | true =>
    rw [hsign] at hread
    rw [if_pos rfl, List.append_assoc, List.singleton_append, tokens_cons (by decide), lexOne,
      hread, orFault]
  | false =>
    rw [hsign] at hread
    rw [if_neg (by simp), List.nil_append]
    obtain ⟨c, whole, hwhole⟩ := List.exists_cons_of_ne_nil hformed.nonempty
    have hc : isDigit c = true := hformed.whole c (by rw [hwhole]; exact .head _)
    rw [hwhole] at hread
    simp only [hwhole, List.cons_append] at hread ⊢
    rw [tokens_cons (isSpace_of_isDigit hc), lexOne_digit hc, hread, orFault]

/-- **A word is cut off as its token.** -/
theorem TokenText.tokens_append (h : TokenText t text) (hrest : StopsAt extendsNumeral rest) :
    tokens (text ++ rest) = t :: tokens rest := by
  cases h with
  | null | true | false => exact tokens_word (by decide) rest rfl
  | number h => exact tokens_number h hrest
  | string h =>
    rw [List.cons_append, List.append_assoc, tokens_cons (by decide), List.singleton_append, lexOne,
      lexString_append h, orFault]
  | _ => exact tokens_cons (by decide) rest

/-- A token that starts here is that of a word. -/
theorem lexOne_eq {c : Char} (h : lexOne c cs = (t, rest)) (ht : t ≠ .fault) :
    ∃ text, TokenText t text ∧ c :: cs = text ++ rest := by
  have word {token : Token} {word : List Char} (hword : TokenText token (c :: word))
      (h : lexWord token word cs = (t, rest)) :
      ∃ text, TokenText t text ∧ c :: cs = text ++ rest := by
    unfold lexWord at h
    split at h
    · rename_i hprefix
      obtain ⟨more, rfl⟩ := List.isPrefixOf_iff_prefix.1 hprefix
      rw [List.drop_left] at h
      cases h
      exact ⟨_, hword, rfl⟩
    · cases h
      exact (ht rfl).elim
  have number {negative : Bool} {digits : List Char}
      (hcs : c :: cs = (if negative then ['-'] else []) ++ digits)
      (h : orFault .number (lexNumber negative digits) = (t, rest)) :
      ∃ text, TokenText t text ∧ c :: cs = text ++ rest := by
    unfold orFault at h
    split at h
    · rename_i n more hnumber
      cases h
      obtain ⟨rfl, hformed, exponent, hexponent, rfl⟩ := Numeral.lexNumber_eq_some hnumber
      refine ⟨_, .number (.mk hformed hexponent), ?_⟩
      simp only [hcs, Numeral.signText, List.append_assoc]
    · cases h
      exact (ht rfl).elim
  unfold lexOne at h
  split at h
  · cases h
    exact ⟨_, .openBrace, rfl⟩
  · cases h
    exact ⟨_, .closeBrace, rfl⟩
  · cases h
    exact ⟨_, .openBracket, rfl⟩
  · cases h
    exact ⟨_, .closeBracket, rfl⟩
  · cases h
    exact ⟨_, .colon, rfl⟩
  · cases h
    exact ⟨_, .comma, rfl⟩
  · unfold orFault at h
    split at h
    · rename_i pieces more hstring
      cases h
      obtain ⟨text, htext, rfl⟩ := lexString_eq_some hstring
      exact ⟨_, .string htext, by simp⟩
    · cases h
      exact (ht rfl).elim
  · exact word .null h
  · exact word .true h
  · exact word .false h
  · exact number (if_pos rfl ▸ rfl) h
  · split at h
    · exact number (if_neg Bool.false_ne_true ▸ rfl) h
    · cases h
      exact (ht rfl).elim

/-- **A token is cut off from its word**, with white space in front of it. -/
theorem exists_word {cs : List Char} (h : tokens cs = t :: ts) (ht : t ≠ .fault) :
    ∃ lead text rest, Spaces lead ∧ TokenText t text ∧ cs = lead ++ (text ++ rest) ∧
      tokens rest = ts := by
  induction cs with
  | nil => simp [tokens] at h
  | cons c cs ih =>
    by_cases hspace : isSpace c = true
    · rw [tokens, if_pos hspace] at h
      obtain ⟨lead, text, rest, hlead, htext, rfl, hrest⟩ := ih h
      exact ⟨c :: lead, text, rest, List.forall_mem_cons.2 ⟨hspace, hlead⟩, htext, rfl, hrest⟩
    · rw [tokens_cons (Bool.eq_false_iff.2 hspace)] at h
      obtain ⟨hone, hrest⟩ := List.cons.inj h
      obtain ⟨text, htext, hcs⟩ := lexOne_eq (Prod.ext hone rfl) ht
      exact ⟨[], text, _, List.forall_mem_nil _, htext, hcs, hrest⟩

theorem spaces_of_tokens (h : tokens cs = []) : Spaces cs := by
  induction cs with
  | nil => exact nofun
  | cons c cs ih =>
    by_cases hspace : isSpace c = true
    · rw [tokens, if_pos hspace] at h
      exact List.forall_mem_cons.2 ⟨hspace, ih h⟩
    · rw [tokens_cons (Bool.eq_false_iff.2 hspace)] at h
      cases h

end

end Json

end TorrentControl

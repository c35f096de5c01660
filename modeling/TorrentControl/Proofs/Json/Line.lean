import TorrentControl.Proofs.Json.Document

/-! # Documents are written on one line

The text of a document has no control characters: those of the strings in it are escaped. So there is
no line break in it, and no byte of its encoding is one. -/

namespace TorrentControl

namespace Text.Utf8

/-- A byte of one bit less stands for a character by itself. -/
theorem toNat_of_mem_encodeChar {c : Char} {b : UInt8} (hb : b ∈ encodeChar c)
    (hlow : b.toNat < 0x80) : b.toNat = c.toNat := by
  have hvalid : c.toNat < 0x110000 := by
    rcases c.valid with h | h
    · exact Nat.lt_trans h (by decide)
    · exact h.2
  simp only [encodeChar] at hb
  split at hb
  · rename_i hascii
    rw [List.mem_singleton.1 hb, toNat_ofNat (by omega)]
  · -- all bytes of a longer sequence have their highest bit set
    exfalso
    split at hb
    · simp only [List.mem_cons, List.not_mem_nil, or_false] at hb
      rcases hb with rfl | rfl <;> rw [toNat_ofNat (by omega)] at hlow <;> omega
    · split at hb
      · simp only [List.mem_cons, List.not_mem_nil, or_false] at hb
        rcases hb with rfl | rfl | rfl <;> rw [toNat_ofNat (by omega)] at hlow <;> omega
      · simp only [List.mem_cons, List.not_mem_nil, or_false] at hb
        rcases hb with rfl | rfl | rfl | rfl <;> rw [toNat_ofNat (by omega)] at hlow <;> omega

theorem exists_of_mem_encode {cs : List Char} {b : UInt8} (hb : b ∈ encode cs)
    (hlow : b.toNat < 0x80) : ∃ c ∈ cs, c.toNat = b.toNat := by
  obtain ⟨c, hc, hb⟩ := List.mem_flatMap.1 hb
  exact ⟨c, hc, (toNat_of_mem_encodeChar hb hlow).symm⟩

theorem encodeText_append (s t : String) : encodeText (s ++ t) = encodeText s ++ encodeText t := by
  rw [encodeText, String.toList_append, encode, List.flatMap_append]
  rfl

end Text.Utf8

namespace Json

/-- The character is no control character. -/
def isPrinted (c : Char) : Bool :=
  0x20 ≤ c.toNat

theorem isPrinted_of_isDigit {c : Char} (h : isDigit c = true) : isPrinted c = true := by
  simp only [isDigit, Number.Decimal.isDigit, Bool.and_eq_true, decide_eq_true_eq] at h
  have hzero : 0x20 ≤ '0'.toNat := by decide
  exact decide_eq_true (Nat.le_trans hzero h.1)

theorem all_isPrinted_of_isDigit {cs : List Char} (h : ∀ c ∈ cs, isDigit c = true) :
    cs.all isPrinted = true :=
  List.all_eq_true.2 fun c hc => isPrinted_of_isDigit (h c hc)

theorem Numeral.printed {n : Numeral} (h : n.WellFormed) : n.chars.all isPrinted = true := by
  have hwhole := all_isPrinted_of_isDigit h.whole
  have hfraction := all_isPrinted_of_isDigit h.fraction
  have hexponent := all_isPrinted_of_isDigit h.exponent
  have hminus : isPrinted '-' = true := rfl
  have hdot : isPrinted '.' = true := rfl
  have hletter : isPrinted 'e' = true := rfl
  simp only [chars, List.all_append, Bool.and_eq_true]
  refine ⟨⟨⟨?_, hwhole⟩, ?_⟩, ?_⟩
  · split <;> simp [hminus]
  · split <;> simp [hdot, hfraction]
  · split <;> simp [hletter, hexponent, hminus]

namespace Document

theorem printed_controlEscape (c : Char) : (controlEscape c).all isPrinted = true := by
  have hdigit : ∀ n < 16, isPrinted (Text.Hex.digit .lower n) = true := by decide
  have hbyte := (UInt8.ofNat c.toNat).toNat_lt
  simp only [controlEscape, Text.Hex.encodeByte, List.all_append, List.all_cons, List.all_nil,
    Bool.and_true]
  rw [hdigit _ (by omega), hdigit _ (by omega)]
  rfl

theorem printed_writeChar (c : Char) : (writeChar c).all isPrinted = true := by
  unfold writeChar
  split
  case h_8 =>
    split
    · exact printed_controlEscape c
    · rename_i hlow
      simpa [isPrinted] using hlow
  all_goals rfl

theorem printed_writeString (s : String) : (writeString s).all isPrinted = true := by
  have hchars : (s.toList.flatMap writeChar).all isPrinted = true := by
    simp [List.all_flatMap, printed_writeChar]
  have hquote : isPrinted '"' = true := rfl
  simp [writeString, hchars, hquote]

mutual
/-- The text of a document has no control characters. -/
theorem printed_write : ∀ {d : Document}, Writable d → (write d).all isPrinted = true
  | .null, _ => rfl
  | .bool true, _ => rfl
  | .bool false, _ => rfl
  | .number _, h => Numeral.printed h
  | .text content, _ => printed_writeString (content.getD "")
  | .array items ending, h => by
    obtain ⟨hitems, rfl⟩ := h
    rw [write, writeEnding, List.all_append, List.all_cons, printed_writeItems hitems]
    rfl
  | .object members ending, h => by
    obtain ⟨hmembers, rfl⟩ := h
    rw [write, writeEnding, List.all_append, List.all_cons, printed_writeMembers hmembers]
    rfl

theorem printed_writeItems : ∀ {items : List Document}, WritableItems items →
    (writeItems items).all isPrinted = true
  | [], _ => rfl
  | [_], h => printed_write h.1
  | d :: e :: more, h => by
    rw [writeItems, List.all_append, List.all_cons, printed_write h.1, printed_writeItems h.2]
    rfl

theorem printed_writeMembers : ∀ {members : List (Option String × Document)},
    WritableMembers members → (writeMembers members).all isPrinted = true
  | [], _ => rfl
  | [(key, d)], h => by
    rw [writeMembers, List.all_append, List.all_cons, printed_writeString, printed_write h.2.1]
    rfl
  | (key, d) :: member :: more, h => by
    rw [writeMembers, List.all_append, List.all_append, List.all_cons, List.all_cons,
      printed_writeString, printed_write h.2.1, printed_writeMembers h.2.2]
    rfl
end

/-- **A document is written on one line.** -/
theorem lineBreak_not_mem_render {d : Document} (h : d.Writable) :
    0x0A ∉ Text.Utf8.encodeText d.render := by
  intro hbreak
  obtain ⟨c, hc, hnat⟩ := Text.Utf8.exists_of_mem_encode hbreak (by decide)
  rw [render, String.toList_ofList] at hc
  have hprinted := List.all_eq_true.1 (printed_write h) c hc
  simp only [isPrinted, hnat] at hprinted
  exact absurd hprinted (by decide)

end Document

end Json

end TorrentControl

import TorrentControl.Proofs.Json.Reading
import TorrentControl.Proofs.Text.Utf8

/-! # Documents are read back from their text

What is written of a document that was not read from a broken text is JSON for it. So the reader, if
it may nest deep enough, takes the whole text and answers the document. -/

namespace TorrentControl.Json

/-! ## Documents with a text of their own -/

namespace Document

mutual
/-- Numerals are as the grammar has them, texts and keys have content, arrays and objects are
closed. -/
def Writable : Document → Prop
  | .null | .bool _ => True
  | .number n => n.WellFormed
  | .text content => content.isSome
  | .array items ending => WritableItems items ∧ ending = .closed
  | .object members ending => WritableMembers members ∧ ending = .closed
  | .broken => False

def WritableItems : List Document → Prop
  | [] => True
  | d :: rest => Writable d ∧ WritableItems rest

def WritableMembers : List (Option String × Document) → Prop
  | [] => True
  | (key, d) :: rest => key.isSome ∧ Writable d ∧ WritableMembers rest
end

end Document

mutual
theorem ValueText.writable {d : Document} {cs : List Char} : ValueText d cs → d.Writable
  | .null | .true | .false => trivial
  | .number (.mk h _) => h
  | .string _ => rfl
  | .emptyArray _ | .emptyObject _ => ⟨trivial, rfl⟩
  | .array h => ⟨h.writable, rfl⟩
  | .object h => ⟨h.writable, rfl⟩

theorem PaddedText.writable {d : Document} {cs : List Char} : PaddedText d cs → d.Writable
  | .mk _ h _ => h.writable

theorem ItemsText.writable {items : List Document} {cs : List Char} :
    ItemsText items cs → Document.WritableItems items
  | .one h => ⟨h.writable, trivial⟩
  | .cons h hmore => ⟨h.writable, hmore.writable⟩

theorem MembersText.writable {members : List (Option String × Document)} {cs : List Char} :
    MembersText members cs → Document.WritableMembers members
  | .one _ h => ⟨rfl, h.writable, trivial⟩
  | .cons _ h hmore => ⟨rfl, h.writable, hmore.writable⟩
end

/-! ## What is written is JSON -/

theorem Numeral.spells_chars {n : Numeral} (h : n.WellFormed) : n.Spells n.chars := by
  have hexponent : n.ExponentText (if n.exponent = [] then [] else
      'e' :: (if n.exponentNegative then ['-'] else []) ++ n.exponent) := by
    split
    · rename_i hnone
      exact .absent hnone
    · rename_i hsome
      refine .present hsome (.head _) ?_
      unfold exponentSigns
      split <;> exact .head _
  have hchars := Spells.mk h hexponent
  rw [chars]
  simpa only [signText, fractionText, List.append_assoc] using hchars

theorem unit?_control : ∀ n < 32,
    unit? '0' '0' (Text.Hex.digit .lower (n / 16)) (Text.Hex.digit .lower (n % 16)) = some n := by
  decide

theorem charText_writeChar (c : Char) : CharText c (Document.writeChar c) := by
  unfold Document.writeChar
  split
  · exact .letter (by decide)
  · exact .letter (by decide)
  · exact .letter (by decide)
  · exact .letter (by decide)
  · exact .letter (by decide)
  · exact .letter (by decide)
  · exact .letter (by decide)
  · rename_i hquote hslash _ _ _ _ _
    split
    · rename_i hlow
      have hbyte : (UInt8.ofNat c.toNat).toNat = c.toNat := by
        rw [UInt8.toNat_ofNat']
        omega
      have hunits : utf16 c = [c.toNat] := if_pos (by omega)
      have hescape := UnitEscapes.cons (unit?_control c.toNat hlow) .nil
      refine .units ?_
      rwa [hunits, Document.controlEscape, Text.Hex.encodeByte, hbyte]
    · rename_i hhigh
      exact .plain ⟨Nat.not_lt.1 hhigh, hquote, hslash⟩

theorem charsText_flatMap_writeChar (cs : List Char) :
    CharsText cs (cs.flatMap Document.writeChar) := by
  induction cs with
  | nil => exact .nil
  | cons c cs ih => exact .cons (charText_writeChar c) ih

theorem valueText_writeString {content : Option String} (h : content.isSome) :
    ValueText (.text content) (Document.writeString (content.getD "")) := by
  obtain ⟨s, rfl⟩ := Option.isSome_iff_exists.1 h
  exact .string (charsText_flatMap_writeChar s.toList)

theorem ValueText.padded {d : Document} {cs : List Char} (h : ValueText d cs) : PaddedText d cs := by
  have hnone : Spaces [] := nofun
  have hpadded := PaddedText.mk hnone h hnone
  rwa [List.nil_append, List.append_nil] at hpadded

namespace Document

mutual
/-- **What is written of a document is JSON for it.** -/
theorem valueText_write : ∀ {d : Document}, Writable d → ValueText d (write d)
  | .null, _ => .null
  | .bool true, _ => .true
  | .bool false, _ => .false
  | .number _, h => .number (Numeral.spells_chars h)
  | .text _, h => valueText_writeString h
  | .array [] _, ⟨_, rfl⟩ => .emptyArray nofun
  | .object [] _, ⟨_, rfl⟩ => .emptyObject nofun
  | .array (_ :: _) _, ⟨hitems, rfl⟩ => .array (itemsText_writeItems hitems (by simp))
  | .object (_ :: _) _, ⟨hmembers, rfl⟩ => .object (membersText_writeMembers hmembers (by simp))

theorem itemsText_writeItems : ∀ {items : List Document}, WritableItems items → items ≠ [] →
    ItemsText items (writeItems items)
  | [_], h, _ => .one (valueText_write h.1).padded
  | _ :: _ :: _, h, _ =>
    .cons (valueText_write h.1).padded (itemsText_writeItems h.2 (by simp))

theorem membersText_writeMembers : ∀ {members : List (Option String × Document)},
    WritableMembers members → members ≠ [] → MembersText members (writeMembers members)
  | [(key, d)], h, _ => by
    have hkey := (valueText_writeString h.1).padded
    obtain ⟨s, rfl⟩ := Option.isSome_iff_exists.1 h.1
    exact .one hkey (valueText_write h.2.1).padded
  | (key, d) :: member :: more, h, _ => by
    have hkey := (valueText_writeString h.1).padded
    have hmore := membersText_writeMembers h.2.2 (by simp)
    obtain ⟨s, rfl⟩ := Option.isSome_iff_exists.1 h.1
    rw [writeMembers, List.append_assoc, List.cons_append]
    exact .cons hkey (valueText_write h.2.1).padded hmore
end

end Document

/-! ## Whole texts -/

namespace Reading

theorem ofTokens_write {d : Document} (h : d.Writable) {limit : Nat} (hlimit : d.nesting ≤ limit) :
    ofTokens limit (tokens d.write) = ⟨d, true⟩ :=
  (ofTokens_tokens_iff.2 ⟨(Document.valueText_write h).padded, hlimit⟩).1

/-- **A document is read back from its text.** -/
theorem ofText_render {d : Document} (h : d.Writable) {limit : Nat} (hlimit : d.nesting ≤ limit) :
    ofText limit d.render = ⟨d, true⟩ := by
  rw [ofText, Document.render, String.toList_ofList, ofTokens_write h hlimit]

/-- **A document is read back from the bytes of its text.** -/
theorem ofBytes_encode_write {d : Document} (h : d.Writable) {limit : Nat}
    (hlimit : d.nesting ≤ limit) : ofBytes limit (Text.Utf8.encode d.write) = ⟨d, true⟩ :=
  (ofBytes_eq_iff.2 ⟨_, rfl, (Document.valueText_write h).padded, hlimit⟩).1

end Reading

end TorrentControl.Json

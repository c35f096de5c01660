import TorrentControl.Text.Utf8

/-! # Texts and their bytes

The bytes of a character are a leading byte, which says how many follow and in which range the first
of them lies, and continuation bytes of six bits each. No byte of one character is taken for that of
another, so a text comes back from its encoding whole. And a character has one encoding only, since
the ranges keep out longer ones: bytes that are read whole are those of the text that was read. -/

namespace TorrentControl.Text.Utf8

/-! ## Bytes -/

theorem toNat_ofNat {n : Nat} (h : n < 256) : (UInt8.ofNat n).toNat = n := by
  rw [UInt8.toNat_ofNat']
  exact Nat.mod_eq_of_lt h

/-- A continuation byte adds its six bits. -/
theorem continued_ofNat (bits due : Nat) {low : Nat} (h : low < 64) (rest : List UInt8) :
    continued bits (due + 1) (UInt8.ofNat (0x80 + low) :: rest) =
      continued (bits * 64 + low) due rest := by
  rw [continued, toNat_ofNat (by omega), if_pos (by omega), Nat.add_sub_cancel_left]

/-- The leading byte of two. -/
theorem lead?_two : ∀ k < 32, 2 ≤ k → lead? (0xC0 + k) = some ⟨k, 0x80, 0xBF, 0⟩ := by decide

/-- The leading byte of three. -/
theorem lead?_three : ∀ k < 16, lead? (0xE0 + k) =
    some ⟨k, if k = 0 then 0xA0 else 0x80, if k = 13 then 0x9F else 0xBF, 1⟩ := by decide

/-- The leading byte of four. -/
theorem lead?_four : ∀ k < 5, lead? (0xF0 + k) =
    some ⟨k, if k = 0 then 0x90 else 0x80, if k = 4 then 0x8F else 0xBF, 2⟩ := by decide

theorem decodeOne_ascii {n : Nat} (h : n < 0x80) (rest : List UInt8) :
    decodeOne (UInt8.ofNat n) rest = (some (Char.ofNat n), rest) := by
  rw [decodeOne, toNat_ofNat (by omega), if_pos h]

/-- A leading byte and a first continuation byte in its range. -/
theorem decodeOne_lead {n low : Nat} {l : Lead} (hlead : lead? n = some l) (hn : 0x80 ≤ n)
    (hbyte : n < 256) (hlow : low < 64) (hrange : l.low ≤ 0x80 + low ∧ 0x80 + low ≤ l.high)
    (rest : List UInt8) : decodeOne (UInt8.ofNat n) (UInt8.ofNat (0x80 + low) :: rest) =
      continued (l.bits * 64 + low) l.further rest := by
  have hrange' : l.low ≤ (UInt8.ofNat (0x80 + low)).toNat ∧
      (UInt8.ofNat (0x80 + low)).toNat ≤ l.high := by
    rwa [toNat_ofNat (by omega)]
  rw [decodeOne, toNat_ofNat hbyte, if_neg (by omega), hlead]
  simp only [hrange', and_self, if_true]
  rw [toNat_ofNat (by omega), Nat.add_sub_cancel_left]

/-! ## Characters -/

theorem decodeOne_two {n : Nat} (hlow : 0x80 ≤ n) (hhigh : n < 0x800) (rest : List UInt8) :
    decodeOne (UInt8.ofNat (0xC0 + n / 64)) (UInt8.ofNat (0x80 + n % 64) :: rest) =
      (some (Char.ofNat n), rest) := by
  have hlead := lead?_two (n / 64) (by omega) (by omega)
  have hrange : 0x80 ≤ 0x80 + n % 64 ∧ 0x80 + n % 64 ≤ 0xBF := by omega
  have hbits : n / 64 * 64 + n % 64 = n := by omega
  rw [decodeOne_lead hlead (by omega) (by omega) (by omega) hrange]
  dsimp only
  rw [continued, hbits]

/-- The range of the second byte leaves out what fits into two bytes, and the surrogates. -/
theorem decodeOne_three {n : Nat} (hlow : 0x800 ≤ n) (hhigh : n < 0x10000)
    (hvalid : n < 0xD800 ∨ 0xDFFF < n) (rest : List UInt8) :
    decodeOne (UInt8.ofNat (0xE0 + n / 4096))
        (UInt8.ofNat (0x80 + n / 64 % 64) :: UInt8.ofNat (0x80 + n % 64) :: rest) =
      (some (Char.ofNat n), rest) := by
  have hlead := lead?_three (n / 4096) (by omega)
  have hrange : (if n / 4096 = 0 then 0xA0 else 0x80) ≤ 0x80 + n / 64 % 64 ∧
      0x80 + n / 64 % 64 ≤ if n / 4096 = 13 then 0x9F else 0xBF := by
    constructor <;> split <;> omega
  have hbits : (n / 4096 * 64 + n / 64 % 64) * 64 + n % 64 = n := by omega
  rw [decodeOne_lead hlead (by omega) (by omega) (by omega) hrange]
  dsimp only
  rw [continued_ofNat _ _ (by omega), continued, hbits]

/-- The range of the second byte leaves out what fits into three bytes, and what is no character. -/
theorem decodeOne_four {n : Nat} (hlow : 0x10000 ≤ n) (hhigh : n < 0x110000) (rest : List UInt8) :
    decodeOne (UInt8.ofNat (0xF0 + n / 262144))
        (UInt8.ofNat (0x80 + n / 4096 % 64) :: UInt8.ofNat (0x80 + n / 64 % 64) ::
          UInt8.ofNat (0x80 + n % 64) :: rest) =
      (some (Char.ofNat n), rest) := by
  have hlead := lead?_four (n / 262144) (by omega)
  have hrange : (if n / 262144 = 0 then 0x90 else 0x80) ≤ 0x80 + n / 4096 % 64 ∧
      0x80 + n / 4096 % 64 ≤ if n / 262144 = 4 then 0x8F else 0xBF := by
    constructor <;> split <;> omega
  have hbits : ((n / 262144 * 64 + n / 4096 % 64) * 64 + n / 64 % 64) * 64 + n % 64 = n := by
    omega
  rw [decodeOne_lead hlead (by omega) (by omega) (by omega) hrange]
  dsimp only
  rw [continued_ofNat _ _ (by omega), continued_ofNat _ _ (by omega), continued, hbits]

/-- The bytes of a character are read as that character, whatever follows. -/
theorem decodeOne_encodeChar (c : Char) (rest : List UInt8) :
    ∃ b more, encodeChar c = b :: more ∧ decodeOne b (more ++ rest) = (some c, rest) := by
  have hvalid : c.toNat < 0xD800 ∨ 0xDFFF < c.toNat ∧ c.toNat < 0x110000 := c.valid
  suffices hread : ∃ b more, encodeChar c = b :: more ∧
      decodeOne b (more ++ rest) = (some (Char.ofNat c.toNat), rest) by
    rwa [Char.ofNat_toNat] at hread
  simp only [encodeChar]
  split
  · exact ⟨_, _, rfl, decodeOne_ascii ‹_› rest⟩
  · split
    · exact ⟨_, _, rfl, decodeOne_two (by omega) ‹_› rest⟩
    · split
      · exact ⟨_, _, rfl, decodeOne_three (by omega) ‹_› (by omega) rest⟩
      · exact ⟨_, _, rfl, decodeOne_four (by omega) (by omega) rest⟩

/-! ## Texts -/

/-- **A text is read back from its bytes.** -/
theorem decodeStrict_encode (cs : List Char) : decodeStrict (encode cs) = (cs, true) := by
  induction cs with
  | nil => rw [encode, List.flatMap_nil, decodeStrict]
  | cons c cs ih =>
    obtain ⟨b, more, hbytes, hone⟩ := decodeOne_encodeChar c (encode cs)
    have hsplit : encode (c :: cs) = b :: (more ++ encode cs) := by
      rw [encode, List.flatMap_cons, hbytes, List.cons_append]
      rfl
    rw [hsplit, decodeStrict, hone]
    simp only [ih]

/-! ## Back to the bytes -/

theorem toNat_charOfNat {n : Nat} (h : n.isValidChar) : (Char.ofNat n).toNat = n := by
  rw [Char.ofNat, dif_pos h]
  rfl

/-- A byte as its offset. -/
theorem eq_ofNat_add {b : UInt8} {offset : Nat} (h : offset ≤ b.toNat) :
    b = UInt8.ofNat (offset + (b.toNat - offset)) := by
  rw [Nat.add_sub_cancel' h, UInt8.ofNat_toNat]

theorem exists_low {b : UInt8} (h : 0x80 ≤ b.toNat) (h' : b.toNat ≤ 0xBF) :
    ∃ low < 64, b.toNat = 0x80 + low ∧ b = UInt8.ofNat (0x80 + low) :=
  ⟨b.toNat - 0x80, by omega, by omega, eq_ofNat_add h⟩

/-- The continuation bytes that are due make the rest of the character. -/
theorem continued_eq_some {c : Char} {rest : List UInt8} :
    ∀ {due bits : Nat} {bytes : List UInt8}, continued bits due bytes = (some c, rest) →
      ∃ lows : List Nat, lows.length = due ∧ (∀ low ∈ lows, low < 64) ∧
        bytes = lows.map (fun low => UInt8.ofNat (0x80 + low)) ++ rest ∧
        c = Char.ofNat (lows.foldl (fun bits low => bits * 64 + low) bits)
  | 0, _, _, h => by
    cases h
    exact ⟨[], rfl, nofun, rfl, rfl⟩
  | _ + 1, _, [], h => by cases h
  | due + 1, bits, b :: bytes, h => by
    rw [continued] at h
    split at h
    · rename_i hrange
      obtain ⟨lows, hlength, hlows, hbytes, hc⟩ := continued_eq_some h
      refine ⟨(b.toNat - 0x80) :: lows, by simp [hlength],
        List.forall_mem_cons.2 ⟨by omega, hlows⟩, ?_, ?_⟩
      · rw [hbytes, List.map_cons, List.cons_append, ← eq_ofNat_add hrange.1]
      · simp only [hc, List.foldl_cons]
    · cases h

/-- A leading byte is one of two, of three or of four. -/
theorem lead?_cases {b : Nat} {l : Lead} (h : lead? b = some l) :
    (∃ k < 32, 2 ≤ k ∧ b = 0xC0 + k) ∨ (∃ k < 16, b = 0xE0 + k) ∨ ∃ k < 5, b = 0xF0 + k := by
  have hrange : (0xC2 ≤ b ∧ b ≤ 0xDF) ∨ (0xE0 ≤ b ∧ b ≤ 0xEF) ∨ (0xF0 ≤ b ∧ b ≤ 0xF4) := by
    refine Decidable.byContradiction fun hnone => ?_
    rw [lead?, if_neg (by omega), if_neg (by omega), if_neg (by omega), if_neg (by omega),
      if_neg (by omega), if_neg (by omega), if_neg (by omega)] at h
    cases h
  rcases hrange with ⟨hlow, hhigh⟩ | ⟨hlow, hhigh⟩ | ⟨hlow, hhigh⟩
  · exact .inl ⟨b - 0xC0, by omega, by omega, by omega⟩
  · exact .inr (.inl ⟨b - 0xE0, by omega, by omega⟩)
  · exact .inr (.inr ⟨b - 0xF0, by omega, by omega⟩)

theorem encodeChar_two {k low : Nat} (hk : 2 ≤ k ∧ k < 32) (hlow : low < 64) :
    encodeChar (Char.ofNat (k * 64 + low)) = [UInt8.ofNat (0xC0 + k), UInt8.ofNat (0x80 + low)] := by
  have hhead : (k * 64 + low) / 64 = k := by omega
  have hlast : (k * 64 + low) % 64 = low := by omega
  simp only [encodeChar, toNat_charOfNat (n := k * 64 + low) (.inl (by omega))]
  rw [if_neg (by omega), if_pos (by omega), hhead, hlast]

theorem encodeChar_three {k mid low : Nat} (hk : k < 16) (hfirst : k = 0 → 32 ≤ mid)
    (hvalid : k = 13 → mid < 32) (hmid : mid < 64) (hlow : low < 64) :
    encodeChar (Char.ofNat ((k * 64 + mid) * 64 + low)) =
      [UInt8.ofNat (0xE0 + k), UInt8.ofNat (0x80 + mid), UInt8.ofNat (0x80 + low)] := by
  have hhead : ((k * 64 + mid) * 64 + low) / 4096 = k := by omega
  have hnext : ((k * 64 + mid) * 64 + low) / 64 % 64 = mid := by omega
  have hlast : ((k * 64 + mid) * 64 + low) % 64 = low := by omega
  have hchar : ((k * 64 + mid) * 64 + low).isValidChar := by unfold Nat.isValidChar; omega
  simp only [encodeChar, toNat_charOfNat hchar]
  rw [if_neg (by omega), if_neg (by omega), if_pos (by omega), hhead, hnext, hlast]

theorem encodeChar_four {k high mid low : Nat} (hk : k < 5) (hfirst : k = 0 → 16 ≤ high)
    (hvalid : k = 4 → high < 16) (hhigh : high < 64) (hmid : mid < 64) (hlow : low < 64) :
    encodeChar (Char.ofNat (((k * 64 + high) * 64 + mid) * 64 + low)) =
      [UInt8.ofNat (0xF0 + k), UInt8.ofNat (0x80 + high), UInt8.ofNat (0x80 + mid),
        UInt8.ofNat (0x80 + low)] := by
  have hhead : (((k * 64 + high) * 64 + mid) * 64 + low) / 262144 = k := by omega
  have hnext : (((k * 64 + high) * 64 + mid) * 64 + low) / 4096 % 64 = high := by omega
  have hthird : (((k * 64 + high) * 64 + mid) * 64 + low) / 64 % 64 = mid := by omega
  have hlast : (((k * 64 + high) * 64 + mid) * 64 + low) % 64 = low := by omega
  have hchar : (((k * 64 + high) * 64 + mid) * 64 + low).isValidChar := by
    unfold Nat.isValidChar
    omega
  simp only [encodeChar, toNat_charOfNat hchar]
  rw [if_neg (by omega), if_neg (by omega), if_neg (by omega), hhead, hnext, hthird, hlast]

/-- What was read is one character with its bytes in front of what follows. -/
theorem decodeOne_eq_some {b : UInt8} {bytes rest : List UInt8} {c : Char}
    (h : decodeOne b bytes = (some c, rest)) : b :: bytes = encodeChar c ++ rest := by
  rw [decodeOne] at h
  split at h
  · rename_i hascii
    cases h
    have hnat := toNat_charOfNat (n := b.toNat) (.inl (by omega))
    simp [encodeChar, hnat, hascii]
  split at h
  · cases h
  rename_i l hlead
  cases bytes with
  | nil => cases h
  | cons first bytes =>
    simp only at h
    split at h
    case isFalse => cases h
    rename_i hfirst
    have hbyte : b = UInt8.ofNat b.toNat := UInt8.ofNat_toNat.symm
    rcases lead?_cases hlead with ⟨k, hk, hlow, hb⟩ | ⟨k, hk, hb⟩ | ⟨k, hk, hb⟩
    · rw [hb, lead?_two k hk hlow] at hlead
      obtain rfl := Option.some.inj hlead
      obtain ⟨next, hnext, hnat, rfl⟩ := exists_low hfirst.1 hfirst.2
      obtain ⟨lows, hlength, -, rfl, rfl⟩ := continued_eq_some h
      obtain rfl := List.length_eq_zero_iff.1 hlength
      rw [hbyte, hb, hnat, Nat.add_sub_cancel_left, List.foldl_nil, encodeChar_two ⟨hlow, hk⟩ hnext]
      rfl
    · rw [hb, lead?_three k hk] at hlead
      obtain rfl := Option.some.inj hlead
      obtain ⟨hleast, hgreatest⟩ := hfirst
      have hlow : (k = 0 → 0xA0 ≤ first.toNat) ∧ 0x80 ≤ first.toNat := by
        simp only at hleast
        split at hleast <;> omega
      have hhigh : (k = 13 → first.toNat ≤ 0x9F) ∧ first.toNat ≤ 0xBF := by
        simp only at hgreatest
        split at hgreatest <;> omega
      obtain ⟨next, hnext, hnat, rfl⟩ := exists_low hlow.2 hhigh.2
      obtain ⟨lows, hlength, hlows, rfl, rfl⟩ := continued_eq_some h
      obtain ⟨last, rfl⟩ := List.length_eq_one_iff.1 hlength
      have hlast := hlows last (.head _)
      rw [hbyte, hb, hnat, Nat.add_sub_cancel_left, List.foldl_cons, List.foldl_nil,
        encodeChar_three hk (by omega) (by omega) hnext hlast]
      rfl
    · rw [hb, lead?_four k hk] at hlead
      obtain rfl := Option.some.inj hlead
      obtain ⟨hleast, hgreatest⟩ := hfirst
      have hlow : (k = 0 → 0x90 ≤ first.toNat) ∧ 0x80 ≤ first.toNat := by
        simp only at hleast
        split at hleast <;> omega
      have hhigh : (k = 4 → first.toNat ≤ 0x8F) ∧ first.toNat ≤ 0xBF := by
        simp only at hgreatest
        split at hgreatest <;> omega
      obtain ⟨next, hnext, hnat, rfl⟩ := exists_low hlow.2 hhigh.2
      obtain ⟨lows, hlength, hlows, rfl, rfl⟩ := continued_eq_some h
      match lows, hlength, hlows with
      | [third, last], _, hlows =>
        have hthird := hlows third (.head _)
        have hlast := hlows last (.tail _ (.head _))
        rw [hbyte, hb, hnat, Nat.add_sub_cancel_left, List.foldl_cons, List.foldl_cons,
          List.foldl_nil, encodeChar_four hk (by omega) (by omega) hnext hthird hlast]
        rfl

/-- **The characters of well-formed bytes have these bytes.** -/
theorem decodeStrict_eq_whole : ∀ {bytes : List UInt8} {cs : List Char},
    decodeStrict bytes = (cs, true) → bytes = encode cs
  | [], _, h => by
    rw [decodeStrict] at h
    cases h
    rfl
  | b :: bytes, cs, h => by
    rw [decodeStrict] at h
    rcases hone : decodeOne b bytes with ⟨_ | c, rest⟩
    · rw [hone] at h
      cases h
    · have hless : rest.length ≤ bytes.length := by
        have hle := decodeOne_length_le b bytes
        rwa [hone] at hle
      rw [hone] at h
      rcases hmore : decodeStrict rest with ⟨more, whole⟩
      simp only [hmore] at h
      cases h
      rw [decodeOne_eq_some hone, decodeStrict_eq_whole hmore]
      rfl
termination_by bytes => bytes.length
decreasing_by
  simp only [List.length_cons]
  omega

/-- **Bytes are read whole exactly if they are the bytes of what is read.** -/
theorem decodeStrict_eq_iff {bytes : List UInt8} {cs : List Char} :
    decodeStrict bytes = (cs, true) ↔ bytes = encode cs :=
  ⟨decodeStrict_eq_whole, fun h => h ▸ decodeStrict_encode cs⟩

end TorrentControl.Text.Utf8

import TorrentControl.Session.Digest

/-! # The texts of a digest

A digit is read in either letter case and written in one. So the texts that are read as given bytes
are those that become, in upper case, what is written for these bytes; no two digests share one. -/

namespace TorrentControl

namespace Text.Hex

/-! ## Digits -/

theorem toUpper_digit (letters : Case) : ∀ n < 16, (digit letters n).toUpper = digit .upper n := by
  cases letters <;> decide

theorem digitValue?_ascii : ∀ k < 128, ∀ n < 16,
    (digitValue? (Char.ofNat k) = some n ↔ (Char.ofNat k).toUpper = digit .upper n) := by
  decide +kernel

theorem digitValue?_lt {c : Char} {n : Nat} (h : digitValue? c = some n) : n < 16 := by
  unfold digitValue? at h
  simp only [Char.le_def, UInt32.le_iff_toNat_le] at h
  split at h
  · rename_i hc
    cases h
    have : c.toNat ≤ 57 := hc.2
    simp only [Char.reduceToNat]
    omega
  · split at h
    · rename_i hc
      cases h
      have : c.toNat ≤ 102 := hc.2
      simp only [Char.reduceToNat]
      omega
    · split at h
      · rename_i hc
        cases h
        have : c.toNat ≤ 70 := hc.2
        simp only [Char.reduceToNat]
        omega
      · cases h

/-- No character beyond ASCII is a digit. -/
theorem digitValue?_beyond {c : Char} (h : 128 ≤ c.toNat) : digitValue? c = none := by
  have far (k : Nat) (hk : k < 128) : ¬ c.toNat ≤ k := by omega
  have h9 : ¬ c ≤ '9' := far 57 (by decide)
  have hf : ¬ c ≤ 'f' := far 102 (by decide)
  have hF : ¬ c ≤ 'F' := far 70 (by decide)
  simp [digitValue?, h9, hf, hF]

theorem toUpper_beyond {c : Char} (h : 128 ≤ c.toNat) : c.toUpper = c := by
  have hz : ¬ c ≤ 'z' := fun hz => absurd (show c.toNat ≤ 122 from hz) (by omega)
  unfold Char.toUpper
  split
  · rename_i hc
    exact (hz hc.2).elim
  · rfl

theorem toNat_digit_lt : ∀ n < 16, (digit .upper n).toNat < 128 := by decide

/-- **A character is read as a digit exactly if it is one in upper case.** -/
theorem digitValue?_eq_some_iff {c : Char} {n : Nat} :
    digitValue? c = some n ↔ n < 16 ∧ c.toUpper = digit .upper n := by
  by_cases hn : n < 16
  · simp only [hn, true_and]
    by_cases hc : c.toNat < 128
    · have := digitValue?_ascii c.toNat hc n hn
      rwa [Char.ofNat_toNat] at this
    · have hbeyond : 128 ≤ c.toNat := by omega
      have hdigit : c ≠ digit .upper n := fun heq => hc (heq ▸ toNat_digit_lt n hn)
      simp [digitValue?_beyond hbeyond, toUpper_beyond hbeyond, hdigit]
  · exact ⟨fun h => (hn (digitValue?_lt h)).elim, fun h => (hn h.1).elim⟩

/-! ## Bytes -/

/-- Two digits are read as the byte that is written with them. -/
theorem digitValues_iff {high low : Char} {b : UInt8} :
    (∃ h l, digitValue? high = some h ∧ digitValue? low = some l ∧ UInt8.ofNat (16 * h + l) = b) ↔
      [high.toUpper, low.toUpper] = encodeByte .upper b := by
  simp only [digitValue?_eq_some_iff, encodeByte, List.cons.injEq, and_true]
  constructor
  · rintro ⟨h, l, ⟨hh, hhigh⟩, ⟨hl, hlow⟩, rfl⟩
    have hbyte : (UInt8.ofNat (16 * h + l)).toNat = 16 * h + l :=
      UInt8.toNat_ofNat_of_lt' (by simp only [UInt8.size]; omega)
    rw [hbyte, hhigh, hlow]
    exact ⟨congrArg _ (by omega), congrArg _ (by omega)⟩
  · rintro ⟨hhigh, hlow⟩
    have := b.toNat_lt
    refine ⟨b.toNat / 16, b.toNat % 16, ⟨by omega, hhigh⟩, ⟨by omega, hlow⟩, ?_⟩
    rw [Nat.div_add_mod, UInt8.ofNat_toNat]

/-- **Digits are read as the bytes that they are written for, up to letter case.** -/
theorem decodeChars_eq_some_iff {cs : List Char} {bytes : List UInt8} :
    decodeChars cs = some bytes ↔ cs.map Char.toUpper = bytes.flatMap (encodeByte .upper) := by
  induction cs using decodeChars.induct generalizing bytes with
  | case1 =>
    cases bytes with
    | nil => simp [decodeChars]
    | cons b rest => simp [decodeChars, encodeByte]
  | case2 high low rest ih =>
    cases bytes with
    | nil => simp [decodeChars, Option.bind_eq_some_iff]
    | cons b bytes =>
      have hstep : (high :: low :: rest).map Char.toUpper =
            (b :: bytes).flatMap (encodeByte .upper) ↔
          [high.toUpper, low.toUpper] = encodeByte .upper b ∧
            rest.map Char.toUpper = bytes.flatMap (encodeByte .upper) := by
        simp [encodeByte, and_assoc]
      rw [hstep, ← ih, ← digitValues_iff]
      simp only [decodeChars, Option.bind_eq_bind, Option.bind_eq_some_iff, Option.pure_def,
        Option.some.injEq, List.cons.injEq]
      constructor
      · rintro ⟨h, hh, l, hl, decoded, hdecoded, hb, rfl⟩
        exact ⟨⟨h, l, hh, hl, hb⟩, hdecoded⟩
      · rintro ⟨⟨h, l, hh, hl, hb⟩, hdecoded⟩
        exact ⟨h, hh, l, hl, bytes, hdecoded, hb, rfl⟩
  | case3 c =>
    cases bytes with
    | nil => simp [decodeChars]
    | cons b rest => simp [decodeChars, encodeByte]

/-- Digits are read if there are two for each byte. -/
theorem decodeChars_isSome_iff {cs : List Char} : (decodeChars cs).isSome ↔
    cs.length % 2 = 0 ∧ ∀ c ∈ cs, (digitValue? c).isSome := by
  induction cs using decodeChars.induct with
  | case1 => simp [decodeChars]
  | case2 high low rest ih =>
    have hlength : (high :: low :: rest).length % 2 = rest.length % 2 := by
      simp only [List.length_cons]
      omega
    rw [hlength]
    cases hhigh : digitValue? high with
    | none => simp [decodeChars, hhigh]
    | some h =>
      cases hlow : digitValue? low with
      | none => simp [decodeChars, hlow]
      | some l =>
        rw [List.forall_mem_cons, List.forall_mem_cons]
        simp only [hhigh, hlow, Option.isSome_some, true_and, ← ih]
        cases hrest : decodeChars rest <;> simp [decodeChars, hhigh, hlow, hrest]
  | case3 c => simp [decodeChars]

/-- A text is read as the bytes that are written like it in upper case. -/
theorem decode_eq_some_iff {text : String} {bytes : List UInt8} : decode text = some bytes ↔
    text.toList.map Char.toUpper = (encode .upper bytes).toList := by
  rw [decode, decodeChars_eq_some_iff, encode, String.toList_ofList]

theorem length_flatMap_encodeByte (letters : Case) (bytes : List UInt8) :
    (bytes.flatMap (encodeByte letters)).length = 2 * bytes.length := by
  induction bytes with
  | nil => rfl
  | cons b rest ih =>
    rw [List.flatMap_cons, List.length_append, ih, List.length_cons, encodeByte]
    simp only [List.length_cons, List.length_nil]
    omega

theorem length_of_decodeChars {cs : List Char} {bytes : List UInt8}
    (h : decodeChars cs = some bytes) : cs.length = 2 * bytes.length := by
  have hwritten := congrArg List.length (decodeChars_eq_some_iff.1 h)
  rwa [List.length_map, length_flatMap_encodeByte] at hwritten

theorem map_toUpper_encode (letters : Case) (bytes : List UInt8) :
    (bytes.flatMap (encodeByte letters)).map Char.toUpper =
      bytes.flatMap (encodeByte .upper) := by
  have hbyte (b : UInt8) : (encodeByte letters b).map Char.toUpper = encodeByte .upper b := by
    have := b.toNat_lt
    simp only [encodeByte, List.map_cons, List.map_nil]
    rw [toUpper_digit letters _ (by omega), toUpper_digit letters _ (by omega)]
  rw [List.map_flatMap]
  exact congrArg (bytes.flatMap ·) (funext hbyte)

end Text.Hex

/-! ## Digests -/

namespace Digest

/-- The text is the one that is written for the digest, in letters of any case. -/
def SpelledBy (d : Digest) (text : String) : Prop :=
  text.toList.map Char.toUpper = (d.toHex .upper).toList

instance (d : Digest) (text : String) : Decidable (d.SpelledBy text) :=
  inferInstanceAs (Decidable (_ = _))

/-- **A text is read as a digest exactly if it spells it.** -/
theorem ofHex?_eq_some_iff {text : String} {d : Digest} :
    ofHex? text = some d ↔ d.SpelledBy text := by
  rw [SpelledBy, toHex, Text.Hex.encode, String.toList_ofList, ← Text.Hex.decodeChars_eq_some_iff]
  simp only [ofHex?, Text.Hex.decode, Option.bind_eq_some_iff, ofBytes?]
  constructor
  · rintro ⟨bytes, hdecode, hlength⟩
    split at hlength
    · cases hlength
      exact hdecode
    · cases hlength
  · intro hdecode
    exact ⟨d.bytes, hdecode, dif_pos d.length_eq⟩

example : (Digest.fill 0x2A).SpelledBy "2a2A2a2A2a2A2a2A2a2A2a2A2a2A2a2A2a2A2a2A" := by decide

/-- A text is read as some digest exactly if it has forty characters, all of them digits. -/
theorem isSome_ofHex?_iff {text : String} : (ofHex? text).isSome ↔
    text.length = 40 ∧ ∀ c ∈ text.toList, (Text.Hex.digitValue? c).isSome := by
  have hread : (ofHex? text).isSome ↔
      ∃ bytes, Text.Hex.decodeChars text.toList = some bytes ∧ bytes.length = 20 := by
    simp only [ofHex?, Text.Hex.decode, ofBytes?, Option.isSome_bind]
    cases Text.Hex.decodeChars text.toList with
    | none => simp
    | some bytes => by_cases h : bytes.length = 20 <;> simp [h]
  rw [hread, ← String.length_toList]
  constructor
  · rintro ⟨bytes, hbytes, hlength⟩
    have hdigits := (Text.Hex.decodeChars_isSome_iff.1 (Option.isSome_of_eq_some hbytes)).2
    exact ⟨by rw [Text.Hex.length_of_decodeChars hbytes, hlength], hdigits⟩
  · rintro ⟨hlength, hdigits⟩
    have hsome := Text.Hex.decodeChars_isSome_iff.2 ⟨by omega, hdigits⟩
    obtain ⟨bytes, hbytes⟩ := Option.isSome_iff_exists.1 hsome
    have := Text.Hex.length_of_decodeChars hbytes
    exact ⟨bytes, hbytes, by omega⟩

/-- A text spells no two digests. -/
theorem SpelledBy.unique {c d : Digest} {text : String} (hc : c.SpelledBy text)
    (hd : d.SpelledBy text) : c = d :=
  Option.some.inj ((ofHex?_eq_some_iff.2 hc).symm.trans (ofHex?_eq_some_iff.2 hd))

/-- The text that is written for a digest spells it, whatever the letter case. -/
theorem spelledBy_toHex (d : Digest) (letters : Text.Hex.Case) : d.SpelledBy (d.toHex letters) := by
  rw [SpelledBy, toHex, toHex, Text.Hex.encode, Text.Hex.encode, String.toList_ofList,
    String.toList_ofList]
  exact Text.Hex.map_toUpper_encode letters d.bytes

end Digest

end TorrentControl

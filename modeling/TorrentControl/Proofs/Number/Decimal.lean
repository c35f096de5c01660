import TorrentControl.Number.Decimal

/-! # Written integers are read back

The digits of a number are digits and denote it, and a word is read back from the text that it is
written as. -/

namespace TorrentControl.Number.Decimal

/-! ## Digits -/

theorem isDigit_of_mem_toDigits {n : Nat} {c : Char} (h : c ∈ Nat.toDigits 10 n) :
    isDigit c = true := by
  have hdigit := Nat.isDigit_of_mem_toDigits (by decide) (by decide) h
  simpa [isDigit, Char.isDigit, Char.le_def] using hdigit

theorem ofDigits_toDigits (n : Nat) : ofDigits (Nat.toDigits 10 n) = n := by
  have h := Nat.ofDigitChars_ten_toDigits (n := n)
  rwa [Nat.ofDigitChars_eq_foldl] at h

/-- No number but zero is written with a zero in front. -/
theorem head?_toDigits {n : Nat} (h : 0 < n) : (Nat.toDigits 10 n).head? ≠ some '0' := by
  induction n using Nat.strongRecOn with
  | ind n ih =>
    by_cases hlt : n < 10
    · have hdigit : ∀ n < 10, 0 < n → [n.digitChar].head? ≠ some '0' := by decide
      rw [Nat.toDigits_of_lt_base hlt]
      exact hdigit n hlt h
    · have hge : 10 ≤ n := Nat.le_of_not_lt hlt
      have hhead := ih (n / 10) (by omega) (by omega)
      rw [Nat.toDigits_of_base_le (by decide) hge]
      cases hdigits : Nat.toDigits 10 (n / 10) with
      | nil => exact absurd hdigits Nat.toDigits_ne_nil
      | cons c cs =>
        rw [hdigits] at hhead
        exact hhead

/-! ## Words -/

theorem readNat?_toDigits (n : Nat) : readNat? (Nat.toDigits 10 n) = some n := by
  have hdigits : Nat.toDigits 10 n ≠ [] ∧ (Nat.toDigits 10 n).all isDigit = true :=
    ⟨Nat.toDigits_ne_nil, List.all_eq_true.2 fun _ => isDigit_of_mem_toDigits⟩
  rw [readNat?, if_pos hdigits, ofDigits_toDigits]

/-- Digits are read without a sign. -/
theorem readInt?_toDigits (n : Nat) : readInt? (Nat.toDigits 10 n) = some n := by
  have hread := readNat?_toDigits n
  cases hdigits : Nat.toDigits 10 n with
  | nil => exact absurd hdigits Nat.toDigits_ne_nil
  | cons c cs =>
    have hc : isDigit c = true := isDigit_of_mem_toDigits (n := n) (by rw [hdigits]; exact .head _)
    rw [hdigits] at hread
    unfold readInt?
    split
    · rename_i h
      cases h
      exact absurd hc (by decide)
    · rename_i h
      cases h
      exact absurd hc (by decide)
    · rw [hread]
      rfl

theorem readInt?_writeInt (n : Int) : readInt? (writeInt n).toList = some n := by
  cases n with
  | ofNat n =>
    have htext : (writeInt (Int.ofNat n)).toList = Nat.toDigits 10 n := by
      change (toString n).toList = _
      rw [Nat.toString_eq_ofList_toDigits, String.toList_ofList]
    rw [htext, readInt?_toDigits]
    rfl
  | negSucc n =>
    have htext : (writeInt (Int.negSucc n)).toList = '-' :: Nat.toDigits 10 (n + 1) := by
      change ("-" ++ toString (n + 1)).toList = _
      simp only [Nat.toString_eq_ofList_toDigits, String.toList_append, String.toList_ofList]
      rfl
    rw [htext, readInt?, readNat?_toDigits]
    rfl

theorem readWord?_writeWord (w : Int64) : readWord? (writeWord w).toList = some w := by
  rw [readWord?, writeWord, readInt?_writeInt]
  have low := w.le_toInt
  have high := w.toInt_lt
  have hrange : Word.least ≤ w.toInt ∧ w.toInt ≤ Word.greatest := by
    unfold Word.least Word.greatest
    omega
  rw [Option.bind_some, Word.ofInt?, if_pos hrange]
  simp

end TorrentControl.Number.Decimal

import Mathlib.Data.List.TakeWhile
import TorrentControl.Proofs.Json.Grammar
import TorrentControl.Proofs.Number.Decimal

/-! # Numerals and their texts

The reader takes a numeral from its text, whatever follows it, and takes nothing for a numeral that
is not one. It goes on as long as it can, so what follows a numeral must not go on with it. -/

namespace TorrentControl

namespace Json

/-! ## Numbers -/

/-- What stands at the head, if anything, does not satisfy the test. -/
def StopsAt (p : Char → Bool) (rest : List Char) : Prop :=
  ∀ c ∈ rest.head?, p c = false

theorem StopsAt.nil {p : Char → Bool} : StopsAt p [] := by
  simp [StopsAt]

theorem StopsAt.cons {p : Char → Bool} {c : Char} {rest : List Char} (h : p c = false) :
    StopsAt p (c :: rest) := by
  simpa [StopsAt] using h

theorem StopsAt.mono {p q : Char → Bool} {rest : List Char} (h : StopsAt p rest)
    (hpq : ∀ c, q c = true → p c = true) : StopsAt q rest := by
  intro c hc
  have hp := h c hc
  cases hq : q c with
  | false => rfl
  | true => rw [hpq c hq] at hp; contradiction

/-- A run of characters that satisfy the test ends where one does not. -/
theorem StopsAt.takeWhile_append {p : Char → Bool} {run rest : List Char} (h : StopsAt p rest)
    (hrun : ∀ c ∈ run, p c = true) :
    (run ++ rest).takeWhile p = run ∧ (run ++ rest).dropWhile p = rest := by
  rw [List.takeWhile_append_of_pos hrun, List.dropWhile_append_of_pos hrun]
  cases rest with
  | nil => simp
  | cons c rest =>
    have hc : p c = false := h c rfl
    simp [hc]

/-- Two runs of such characters that end are the same if the texts are. -/
theorem StopsAt.append_inj {p : Char → Bool} {run run' rest rest' : List Char}
    (hrest : StopsAt p rest) (hrest' : StopsAt p rest') (hrun : ∀ c ∈ run, p c = true)
    (hrun' : ∀ c ∈ run', p c = true) (h : run ++ rest = run' ++ rest') :
    run = run' ∧ rest = rest' := by
  obtain ⟨htake, hdrop⟩ := hrest.takeWhile_append hrun
  obtain ⟨htake', hdrop'⟩ := hrest'.takeWhile_append hrun'
  rw [h] at htake hdrop
  exact ⟨htake.symm.trans htake', hdrop.symm.trans hdrop'⟩

/-- A character that can go on with a numeral. -/
def extendsNumeral (c : Char) : Bool :=
  isDigit c || c == '.' || c == 'e' || c == 'E'

namespace Numeral

theorem wellFormed_ofInt (n : Int) : (ofInt n).WellFormed := by
  have hwhole : (ofInt n).whole = Nat.toDigits 10 n.natAbs := by
    simp [ofInt]
  refine ⟨?_, ?_, ?_, by simp [ofInt], by simp [ofInt], fun _ => rfl⟩
  · intro c hc
    rw [hwhole] at hc
    exact Number.Decimal.isDigit_of_mem_toDigits hc
  · rw [hwhole]
    exact Nat.toDigits_ne_nil
  · intro hzero
    rw [hwhole] at hzero ⊢
    cases hn : n.natAbs with
    | zero => rfl
    | succ m =>
      rw [hn] at hzero
      exact absurd hzero (Number.Decimal.head?_toDigits (Nat.succ_pos m))

variable {n : Numeral} {cs ds rest text : List Char} {negative : Bool}

/-! ### From words to numerals -/

theorem lexWhole_append (h : n.WellFormed) (hrest : StopsAt isDigit rest) :
    lexWhole (n.whole ++ rest) = some (n.whole, rest) := by
  obtain ⟨htake, hdrop⟩ := hrest.takeWhile_append h.whole
  unfold lexWhole
  rw [htake, hdrop]
  split
  · rename_i hnil
    exact absurd hnil h.nonempty
  · rename_i hzero
    rw [hzero]
  · rename_i more hne hzero
    have hall := h.leading (by rw [hzero]; rfl)
    rw [hzero, List.cons.injEq] at hall
    exact (hne (by rw [hall.2])).elim
  · rfl

theorem lexFraction_append (h : n.WellFormed)
    (hrest : StopsAt (fun c => isDigit c || c == '.') rest) :
    lexFraction (n.fractionText ++ rest) = some (n.fraction, rest) := by
  unfold fractionText
  split
  · rename_i hnone
    rw [hnone, List.nil_append]
    unfold lexFraction
    split
    · have hdot := hrest '.' rfl
      simp at hdot
    · rfl
  · rename_i hsome
    have hdigits : StopsAt isDigit rest := hrest.mono fun c hc => by simp [hc]
    obtain ⟨htake, hdrop⟩ := hdigits.takeWhile_append h.fraction
    simp only [List.cons_append, lexFraction, htake, hdrop]

theorem lexSign_append {sign digits : List Char} (hsign : sign ∈ n.exponentSigns)
    (hdigits : ∀ c ∈ digits, isDigit c = true) (hne : digits ≠ []) :
    lexSign (sign ++ digits ++ rest) = (n.exponentNegative, digits ++ rest) := by
  unfold exponentSigns at hsign
  split at hsign
  · rename_i hnegative
    obtain rfl := List.mem_singleton.1 hsign
    rw [hnegative]
    rfl
  · rename_i hpositive
    rw [Bool.eq_false_iff.2 hpositive]
    simp only [List.mem_cons, List.not_mem_nil, or_false] at hsign
    rcases hsign with rfl | rfl
    · obtain ⟨c, cs, rfl⟩ := List.exists_cons_of_ne_nil hne
      have hc := hdigits c (.head _)
      rw [List.nil_append, List.cons_append]
      unfold lexSign
      split
      · rename_i heq
        cases heq
        exact absurd hc (by decide)
      · rename_i heq
        cases heq
        exact absurd hc (by decide)
      · rfl
    · rfl

theorem lexExponent_append (h : n.WellFormed) (htext : n.ExponentText text)
    (hrest : StopsAt extendsNumeral rest) :
    lexExponent (text ++ rest) = some (n.exponentNegative, n.exponent, rest) := by
  cases htext with
  | absent hnone =>
    rw [hnone, h.unsigned hnone, List.nil_append]
    unfold lexExponent
    split
    · have hletter := hrest 'e' rfl
      simp [extendsNumeral] at hletter
    · have hletter := hrest 'E' rfl
      simp [extendsNumeral] at hletter
    · rfl
  | present hsome hletter hsign =>
    have hdigits : StopsAt isDigit rest := hrest.mono fun c hc => by simp [extendsNumeral, hc]
    obtain ⟨htake, hdrop⟩ := hdigits.takeWhile_append h.exponent
    simp only [List.mem_cons, List.not_mem_nil, or_false] at hletter
    rcases hletter with rfl | rfl <;>
      simp only [List.cons_append, lexExponent, lexSign_append hsign h.exponent hsome, htake, hdrop]

theorem ExponentText.stopsAt (htext : n.ExponentText text) (hrest : StopsAt extendsNumeral rest) :
    StopsAt (fun c => isDigit c || c == '.') (text ++ rest) := by
  cases htext with
  | absent => exact hrest.mono fun c hc => by simp_all [extendsNumeral]
  | present _ hletter _ =>
    simp only [List.mem_cons, List.not_mem_nil, or_false] at hletter
    rcases hletter with rfl | rfl <;> exact .cons (by decide)

/-- The text of a numeral after its sign is read as the numeral. -/
theorem lexNumber_append (h : n.WellFormed) (htext : n.ExponentText text)
    (hrest : StopsAt extendsNumeral rest) :
    lexNumber n.negative (n.whole ++ (n.fractionText ++ text) ++ rest) = some (n, rest) := by
  have hexponent := htext.stopsAt hrest
  have hfraction : StopsAt isDigit (n.fractionText ++ (text ++ rest)) := by
    unfold fractionText
    split
    · exact hexponent.mono fun c hc => by simp [hc]
    · exact .cons (by decide)
  simp only [lexNumber, List.append_assoc, lexWhole_append h hfraction,
    lexFraction_append h hexponent, lexExponent_append h htext hrest, Option.bind_eq_bind,
    Option.bind_some, Option.pure_def]

/-! ### From numerals to words -/

theorem lexWhole_eq_some (h : lexWhole cs = some (ds, rest)) :
    cs = ds ++ rest ∧ (∀ c ∈ ds, isDigit c = true) ∧ ds ≠ [] ∧
      (ds.head? = some '0' → ds = ['0']) := by
  have hcut := List.takeWhile_append_dropWhile (p := isDigit) (l := cs)
  have hdigits (c : Char) (hc : c ∈ cs.takeWhile isDigit) : isDigit c = true :=
    List.mem_takeWhile_imp hc
  unfold lexWhole at h
  generalize cs.takeWhile isDigit = run at h hcut hdigits
  split at h
  · cases h
  · cases h
    exact ⟨hcut.symm, hdigits, nofun, fun _ => rfl⟩
  · cases h
  · rename_i hnil hzero hzeros
    cases h
    refine ⟨hcut.symm, hdigits, hnil, fun hhead => ?_⟩
    obtain ⟨more, rfl⟩ := List.head?_eq_some_iff.1 hhead
    exact (hzeros more rfl).elim

theorem lexFraction_eq_some (h : lexFraction cs = some (n.fraction, rest)) :
    cs = n.fractionText ++ rest ∧ ∀ c ∈ n.fraction, isDigit c = true := by
  unfold lexFraction at h
  split at h
  · rename_i cs
    have hcut := List.takeWhile_append_dropWhile (p := isDigit) (l := cs)
    split at h
    · cases h
    · rename_i hnil
      simp only [Option.some.injEq, Prod.mk.injEq] at h
      obtain ⟨hfraction, rfl⟩ := h
      rw [hfraction] at hcut hnil
      refine ⟨?_, fun c hc => List.mem_takeWhile_imp (hfraction ▸ hc)⟩
      rw [fractionText, if_neg hnil, List.cons_append, hcut]
  · simp only [Option.some.injEq, Prod.mk.injEq] at h
    obtain ⟨hfraction, rfl⟩ := h
    rw [fractionText, ← hfraction]
    exact ⟨rfl, nofun⟩

theorem exists_sign (cs : List Char) (hn : n.exponentNegative = (lexSign cs).1) :
    ∃ sign ∈ n.exponentSigns, cs = sign ++ (lexSign cs).2 := by
  unfold lexSign at hn ⊢
  unfold exponentSigns
  rw [hn]
  split
  · exact ⟨['-'], by simp, rfl⟩
  · exact ⟨['+'], by simp, rfl⟩
  · exact ⟨[], by simp, rfl⟩

theorem lexExponent_eq_some (h : lexExponent cs = some (n.exponentNegative, n.exponent, rest)) :
    (∃ text, n.ExponentText text ∧ cs = text ++ rest) ∧
      (∀ c ∈ n.exponent, isDigit c = true) ∧ (n.exponent = [] → n.exponentNegative = false) := by
  -- the digits after either letter
  have behind {letter : Char} {cs : List Char} (hletter : letter ∈ ['e', 'E'])
      (hn : n.exponentNegative = (lexSign cs).1)
      (hdigits : n.exponent = (lexSign cs).2.takeWhile isDigit) (hne : n.exponent ≠ [])
      (hrest : rest = (lexSign cs).2.dropWhile isDigit) :
      (∃ text, n.ExponentText text ∧ letter :: cs = text ++ rest) ∧
        (∀ c ∈ n.exponent, isDigit c = true) ∧ (n.exponent = [] → n.exponentNegative = false) := by
    obtain ⟨sign, hsign, hcs⟩ := exists_sign cs hn
    have hcut := List.takeWhile_append_dropWhile (p := isDigit) (l := (lexSign cs).2)
    refine ⟨⟨_, .present hne hletter hsign, ?_⟩, fun c hc => ?_, fun h => (hne h).elim⟩
    · rw [List.cons_append, List.append_assoc, hdigits, hrest, hcut, ← hcs]
    · exact List.mem_takeWhile_imp (hdigits ▸ hc)
  unfold lexExponent at h
  split at h
  · simp only at h
    split at h
    · cases h
    · rename_i hne
      simp only [Option.some.injEq, Prod.mk.injEq] at h
      obtain ⟨hn, hdigits, hrest⟩ := h
      exact behind (by simp) hn.symm hdigits.symm (hdigits ▸ hne) hrest.symm
  · simp only at h
    split at h
    · cases h
    · rename_i hne
      simp only [Option.some.injEq, Prod.mk.injEq] at h
      obtain ⟨hn, hdigits, hrest⟩ := h
      exact behind (by simp) hn.symm hdigits.symm (hdigits ▸ hne) hrest.symm
  · simp only [Option.some.injEq, Prod.mk.injEq] at h
    obtain ⟨hn, hdigits, rfl⟩ := h
    exact ⟨⟨[], .absent hdigits.symm, rfl⟩, by simp [← hdigits], fun _ => hn.symm⟩

theorem lexNumber_eq_some (h : lexNumber negative cs = some (n, rest)) :
    n.negative = negative ∧ n.WellFormed ∧
      ∃ text, n.ExponentText text ∧ cs = n.whole ++ (n.fractionText ++ text) ++ rest := by
  simp only [lexNumber, Option.bind_eq_bind, Option.bind_eq_some_iff, Option.pure_def,
    Option.some.injEq, Prod.mk.injEq, Prod.exists] at h
  obtain ⟨whole, cs₁, hwhole, fraction, cs₂, hfraction, exponentNegative, exponent, cs₃, hexponent,
    rfl, rfl⟩ := h
  obtain ⟨rfl, hdigits, hnonempty, hleading⟩ := lexWhole_eq_some hwhole
  obtain ⟨rfl, hfractions⟩ := lexFraction_eq_some (n := ⟨negative, whole, fraction, exponentNegative,
    exponent⟩) hfraction
  obtain ⟨⟨text, htext, rfl⟩, hexponents, hunsigned⟩ := lexExponent_eq_some (n := ⟨negative, whole,
    fraction, exponentNegative, exponent⟩) hexponent
  refine ⟨rfl, ⟨hdigits, hnonempty, hleading, hfractions, hexponents, hunsigned⟩, text, htext, ?_⟩
  simp only [List.append_assoc]

/-! ### What numerals denote -/

/-- An integer of at most 64 bits is read back from the numeral it is written as. -/
theorem value_ofInt {i : Int} (hlow : Number.Word.least ≤ i) (hhigh : i ≤ greatestSignificand) :
    (ofInt i).value = .integer i := by
  have hwhole : Number.Decimal.ofDigits (ofInt i).whole = i.natAbs := by
    simp [ofInt, Number.Decimal.ofDigits_toDigits]
  have hinteger : (ofInt i).isInteger = true := rfl
  have hsome : (ofInt i).integer? = some i := by
    unfold integer?
    rw [hwhole, if_pos hinteger]
    by_cases hneg : i < 0
    · have hsign : (ofInt i).negative = true := by simpa [ofInt] using hneg
      rw [if_pos hsign, if_pos (by omega)]
      congr 1
      omega
    · have hsign : (ofInt i).negative = false := by simpa [ofInt] using hneg
      simp only [hsign, Bool.false_eq_true, if_false]
      rw [if_pos (by omega)]
      congr 1
      omega
  rw [value, hsome]

end Numeral

end Json

end TorrentControl

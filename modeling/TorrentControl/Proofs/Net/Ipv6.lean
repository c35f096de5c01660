import Mathlib.Data.Nat.Digits.Defs
import Mathlib.Tactic.Ring
import TorrentControl.Net.Ipv6
import TorrentControl.Proofs.Text.Hex
import TorrentControl.Proofs.Text.Split

/-! # IPv6 addresses are read back

What is read are eight groups of sixteen bits, and the text that is written for eight such groups is
read as them, wherever its gap is. -/

namespace TorrentControl.Net.Ipv6

/-- Eight groups of sixteen bits. -/
structure IsAddress (groups : List Nat) : Prop where
  length_eq : groups.length = 8
  lt : ∀ n ∈ groups, n < 65536

/-! ## Groups -/

theorem digitValue?_digitChar : ∀ n < 16, Text.Hex.digitValue? n.digitChar = some n := by decide

/-- A group is hexadecimal digits, and neither points nor colons. -/
theorem isSome_digitValue?_of_mem {n : Nat} {c : Char} (h : c ∈ Nat.toDigits 16 n) :
    (Text.Hex.digitValue? c).isSome := by
  induction n using Nat.strongRecOn with
  | ind n ih =>
    by_cases hlt : n < 16
    · rw [Nat.toDigits_of_lt_base hlt] at h
      rw [List.mem_singleton.1 h, digitValue?_digitChar n hlt]
      rfl
    · rw [Nat.toDigits_of_base_le (by decide) (Nat.le_of_not_lt hlt)] at h
      rcases List.mem_append.1 h with h | h
      · exact ih (n / 16) (by omega) h
      · rw [List.mem_singleton.1 h, digitValue?_digitChar _ (Nat.mod_lt n (by decide))]
        rfl

theorem foldlM_toDigits (n : Nat) :
    (Nat.toDigits 16 n).foldlM (fun n c => (Text.Hex.digitValue? c).map fun d => 16 * n + d) 0 =
      some n := by
  induction n using Nat.strongRecOn with
  | ind n ih =>
    by_cases hlt : n < 16
    · rw [Nat.toDigits_of_lt_base hlt]
      simp [digitValue?_digitChar n hlt]
    · have hdigit := digitValue?_digitChar _ (Nat.mod_lt n (by decide : 0 < 16))
      rw [Nat.toDigits_of_base_le (by decide) (Nat.le_of_not_lt hlt), List.foldlM_append,
        ih (n / 16) (by omega)]
      simp [hdigit, Nat.div_add_mod]

theorem readGroup?_toDigits {n : Nat} (h : n < 65536) : readGroup? (Nat.toDigits 16 n) = some n := by
  have hlength : (Nat.toDigits 16 n).length ≤ 4 :=
    (Nat.length_toDigits_le_iff (by decide) (by decide)).2 h
  have hfits : ¬ (Nat.toDigits 16 n = [] ∨ 4 < (Nat.toDigits 16 n).length) := by
    rw [not_or]
    exact ⟨Nat.toDigits_ne_nil, Nat.not_lt.2 hlength⟩
  rw [readGroup?, if_neg hfits, foldlM_toDigits]

/-- The texts of groups. -/
def texts (groups : List Nat) : List (List Char) :=
  groups.map (Nat.toDigits 16)

theorem not_mem_texts {groups : List Nat} {c : Char} (hc : Text.Hex.digitValue? c = none) :
    ∀ text ∈ texts groups, c ∉ text := by
  intro text htext hmem
  obtain ⟨n, -, rfl⟩ := List.mem_map.1 htext
  have hsome := isSome_digitValue?_of_mem hmem
  rw [hc] at hsome
  cases hsome

theorem readGroups?_texts {groups : List Nat} (dotted : Bool) (h : ∀ n ∈ groups, n < 65536) :
    readGroups? dotted (texts groups) = some groups := by
  induction groups with
  | nil => rfl
  | cons n rest ih =>
    obtain ⟨hn, hrest⟩ := List.forall_mem_cons.1 h
    have hpoint : (Nat.toDigits 16 n).contains '.' = false := by
      have hpoint : '.' ∉ Nat.toDigits 16 n :=
        not_mem_texts (by decide) _ (show Nat.toDigits 16 n ∈ texts [n] from .head _)
      simpa using hpoint
    cases rest with
    | nil =>
      rw [texts, List.map_cons, List.map_nil, readGroups?, hpoint, readGroup?_toDigits hn]
      simp
    | cons m rest =>
      have hmore := ih hrest
      rw [texts, List.map_cons] at hmore ⊢
      rw [List.map_cons, readGroups?, readGroup?_toDigits hn, hmore]
      · rfl
      · exact List.cons_ne_nil _ _

theorem ne_nil_of_mem_texts {groups : List Nat} : ∀ text ∈ texts groups, text ≠ [] := by
  intro text htext
  obtain ⟨n, -, rfl⟩ := List.mem_map.1 htext
  exact Nat.toDigits_ne_nil

theorem toList_writeGroups (groups : List Nat) :
    (writeGroups groups).toList = [':'].intercalate (texts groups) := by
  rw [writeGroups, String.toList_intercalate, List.map_map, texts]
  simp [Function.comp_def]

theorem readSide?_writeGroups {groups : List Nat} (dotted : Bool) (h : ∀ n ∈ groups, n < 65536) :
    readSide? dotted (writeGroups groups).toList = some groups := by
  by_cases hempty : groups = []
  · subst hempty
    rfl
  · have htexts : texts groups ≠ [] := by simpa [texts] using hempty
    have hsplit := Text.split_intercalate_pieces htexts (not_mem_texts (c := ':') (by decide))
    have hne : [':'].intercalate (texts groups) ≠ [] := fun hnil => by
      rw [hnil] at hsplit
      have hmem : [] ∈ texts groups := by
        rw [← hsplit]
        exact .head _
      exact ne_nil_of_mem_texts [] hmem rfl
    rw [readSide?, toList_writeGroups, if_neg hne, hsplit, readGroups?_texts dotted h]

/-! ## The gap -/

theorem splitGap_append {piece : List Char} (h : ':' ∉ piece) (cs : List Char) :
    splitGap (piece ++ cs) = (splitGap cs).map fun sides => (piece ++ sides.1, sides.2) := by
  induction piece with
  | nil => simp
  | cons c piece ih =>
    rw [List.mem_cons, not_or] at h
    rw [List.cons_append, splitGap, ih h.2, Option.map_map]
    · rfl
    · rintro rest rfl
      exact absurd rfl h.1

/-- A colon before something else is no gap. -/
theorem splitGap_colon {c : Char} (h : c ≠ ':') (cs : List Char) :
    splitGap (':' :: c :: cs) = (splitGap (c :: cs)).map fun sides => (':' :: sides.1, sides.2) := by
  rw [splitGap]
  rintro rest - heq
  exact h (List.cons.inj heq).1

/-- The first gap behind groups is the first one altogether. -/
theorem splitGap_texts {pieces : List (List Char)} (hcolon : ∀ piece ∈ pieces, ':' ∉ piece)
    (hne : ∀ piece ∈ pieces, piece ≠ []) (cs : List Char) :
    splitGap ([':'].intercalate pieces ++ cs) =
      (splitGap cs).map fun sides => ([':'].intercalate pieces ++ sides.1, sides.2) := by
  induction pieces with
  | nil => simp [List.intercalate]
  | cons piece pieces ih =>
    obtain ⟨hpiece, hcolon⟩ := List.forall_mem_cons.1 hcolon
    have hrest := ih hcolon fun piece hmem => hne piece (.tail _ hmem)
    cases pieces with
    | nil =>
      rw [List.intercalate_singleton]
      exact splitGap_append hpiece cs
    | cons next pieces =>
      obtain ⟨c, more, rfl⟩ := List.exists_cons_of_ne_nil (hne next (.tail _ (.head _)))
      have hc : c ≠ ':' := fun heq => hcolon _ (.head _) (heq ▸ .head _)
      obtain ⟨tail, htail⟩ : ∃ tail, [':'].intercalate ((c :: more) :: pieces) = c :: tail := by
        cases pieces with
        | nil => exact ⟨more, List.intercalate_singleton⟩
        | cons => exact ⟨_, by rw [List.intercalate_cons_cons]; rfl⟩
      rw [htail] at hrest
      rw [Text.intercalate_cons piece (List.cons_ne_nil _ _), htail, List.append_assoc,
        splitGap_append hpiece]
      rw [List.cons_append] at hrest ⊢
      rw [List.cons_append, splitGap_colon hc, hrest]
      simp [Function.comp_def]

/-- A run of zeros is where it was counted. -/
theorem groups_eq (groups : List Nat) (start : Nat) :
    groups.take start ++ List.replicate (zerosFrom groups start) 0 ++
      groups.drop (start + zerosFrom groups start) = groups := by
  have hzeros : (groups.drop start).takeWhile (· == 0) =
      List.replicate (zerosFrom groups start) 0 := by
    refine List.eq_replicate_iff.2 ⟨rfl, fun n hn => ?_⟩
    exact eq_of_beq (List.all_eq_true.1 (List.all_takeWhile (p := (· == 0))) n hn)
  have hrest : groups.drop (start + zerosFrom groups start) =
      (groups.drop start).dropWhile (· == 0) := by
    rw [← List.drop_drop]
    conv_lhs => rw [← List.takeWhile_append_dropWhile (p := (· == 0)) (l := groups.drop start)]
    exact List.drop_left' rfl
  rw [← hzeros, hrest, List.append_assoc, List.takeWhile_append_dropWhile, List.take_append_drop]

/-! ## Addresses -/

/-- **An address is read back from its text.** -/
theorem read?_write {groups : List Nat} (h : IsAddress groups) :
    read? (write groups).toList = some groups := by
  have hgap (groups : List Nat) (cs : List Char) :
      splitGap ((writeGroups groups).toList ++ cs) =
        (splitGap cs).map fun sides => ((writeGroups groups).toList ++ sides.1, sides.2) := by
    rw [toList_writeGroups]
    exact splitGap_texts (not_mem_texts (by decide)) ne_nil_of_mem_texts cs
  have hparts := groups_eq groups (gapStart groups)
  unfold write
  dsimp only
  generalize gapStart groups = start at hparts
  split
  · have hnone : splitGap (writeGroups groups).toList = none := by
      simpa [splitGap] using hgap groups []
    rw [read?, hnone]
    simp only [readSide?_writeGroups true h.lt, Option.bind_some, h.length_eq, if_true]
  · rename_i hlong
    have hsome : splitGap (writeGroups (groups.take start) ++ "::" ++
        writeGroups (groups.drop (start + zerosFrom groups start))).toList =
        some ((writeGroups (groups.take start)).toList,
          (writeGroups (groups.drop (start + zerosFrom groups start))).toList) := by
      rw [String.toList_append, String.toList_append, List.append_assoc, hgap]
      simp [splitGap]
    have hlength := congrArg List.length hparts
    simp only [List.length_append, List.length_replicate, h.length_eq] at hlength
    have hleft := readSide?_writeGroups false
      fun n (hn : n ∈ groups.take start) => h.lt n (List.mem_of_mem_take hn)
    have hright := readSide?_writeGroups true
      fun n (hn : n ∈ groups.drop (start + zerosFrom groups start)) =>
        h.lt n (List.mem_of_mem_drop hn)
    have hmissing : 8 - ((groups.take start).length +
        (groups.drop (start + zerosFrom groups start)).length) = zerosFrom groups start := by
      omega
    rw [read?, hsome]
    simp only [hleft, hright, hmissing, Option.bind_eq_bind, Option.bind_some]
    rw [if_neg (by omega), hparts]

/-- The text of an address is digits and colons. -/
theorem of_mem_write {groups : List Nat} {c : Char} (h : c ∈ (write groups).toList) :
    (Text.Hex.digitValue? c).isSome ∨ c = ':' := by
  have hgroups (groups : List Nat) (hc : c ∈ (writeGroups groups).toList) :
      (Text.Hex.digitValue? c).isSome ∨ c = ':' := by
    rw [toList_writeGroups] at hc
    rcases Text.of_mem_intercalate hc with rfl | ⟨text, htext, hc⟩
    · exact .inr rfl
    · obtain ⟨n, -, rfl⟩ := List.mem_map.1 htext
      exact .inl (isSome_digitValue?_of_mem hc)
  unfold write at h
  dsimp only at h
  split at h
  · exact hgroups _ h
  · simp only [String.toList_append, List.mem_append] at h
    rcases h with (h | h) | h
    · exact hgroups _ h
    · exact .inr (by simpa using h)
    · exact hgroups _ h

/-! ## What is read -/

theorem readGroup?_lt {cs : List Char} {n : Nat} (h : readGroup? cs = some n) : n < 65536 := by
  have hbound : ∀ (cs : List Char) (start n : Nat),
      cs.foldlM (fun n c => (Text.Hex.digitValue? c).map fun d => 16 * n + d) start = some n →
        n < (start + 1) * 16 ^ cs.length := by
    intro cs
    induction cs with
    | nil =>
      intro start n h
      cases h
      simp
    | cons c cs ih =>
      intro start n h
      rw [List.foldlM_cons] at h
      cases hd : Text.Hex.digitValue? c with
      | none => simp [hd] at h
      | some d =>
        have hlt := Text.Hex.digitValue?_lt hd
        have hn := ih (16 * start + d) n (by simpa [hd] using h)
        calc n < (16 * start + d + 1) * 16 ^ cs.length := hn
          _ ≤ (16 * (start + 1)) * 16 ^ cs.length := Nat.mul_le_mul_right _ (by omega)
          _ = (start + 1) * 16 ^ (cs.length + 1) := by ring
  unfold readGroup? at h
  split at h
  · cases h
  · rename_i hlength
    have hn := hbound cs 0 n h
    have hpow : 16 ^ cs.length ≤ 16 ^ 4 := Nat.pow_le_pow_right (by decide) (by omega)
    omega

theorem readOctet?_le {cs : List Char} {n : Nat} (h : readOctet? cs = some n) : n ≤ 255 := by
  unfold readOctet? at h
  simp only [Option.bind_eq_bind, Option.bind_eq_some_iff] at h
  obtain ⟨m, -, hm⟩ := h
  split at hm
  · cases hm
  · rename_i hsmall
    cases hm
    omega

theorem readDotted?_lt {cs : List Char} {groups : List Nat} (h : readDotted? cs = some groups) :
    ∀ n ∈ groups, n < 65536 := by
  unfold readDotted? at h
  simp only [Option.bind_eq_bind, Option.bind_eq_some_iff] at h
  obtain ⟨octets, hoctets, hgroups⟩ := h
  have hle : ∀ n ∈ octets, n ≤ 255 := by
    clear hgroups
    generalize Text.split '.' cs = pieces at hoctets
    induction pieces generalizing octets with
    | nil =>
      cases hoctets
      exact nofun
    | cons piece pieces ih =>
      simp only [List.mapM_cons, Option.bind_eq_bind, Option.bind_eq_some_iff, Option.pure_def,
        Option.some.injEq] at hoctets
      obtain ⟨n, hn, rest, hrest, rfl⟩ := hoctets
      exact List.forall_mem_cons.2 ⟨readOctet?_le hn, ih _ hrest⟩
  split at hgroups
  · cases hgroups
    simp only [List.mem_cons, List.not_mem_nil, or_false, forall_eq_or_imp, forall_eq] at hle ⊢
    omega
  · cases hgroups

theorem readGroups?_lt {dotted : Bool} {pieces : List (List Char)} {groups : List Nat}
    (h : readGroups? dotted pieces = some groups) : ∀ n ∈ groups, n < 65536 := by
  induction pieces generalizing groups with
  | nil =>
    cases h
    exact nofun
  | cons piece pieces ih =>
    cases pieces with
    | nil =>
      rw [readGroups?] at h
      split at h
      · exact readDotted?_lt h
      · obtain ⟨n, hn, rfl⟩ := Option.map_eq_some_iff.1 h
        exact fun m hm => List.mem_singleton.1 hm ▸ readGroup?_lt hn
    | cons next pieces =>
      rw [readGroups?] at h
      · simp only [Option.bind_eq_bind, Option.bind_eq_some_iff, Option.pure_def,
          Option.some.injEq] at h
        obtain ⟨n, hn, rest, hrest, rfl⟩ := h
        exact List.forall_mem_cons.2 ⟨readGroup?_lt hn, ih hrest⟩
      · exact List.cons_ne_nil _ _

theorem readSide?_lt {dotted : Bool} {cs : List Char} {groups : List Nat}
    (h : readSide? dotted cs = some groups) : ∀ n ∈ groups, n < 65536 := by
  unfold readSide? at h
  split at h
  · cases h
    exact nofun
  · exact readGroups?_lt h

/-- **Only addresses are read.** -/
theorem isAddress_of_read? {cs : List Char} {groups : List Nat} (h : read? cs = some groups) :
    IsAddress groups := by
  unfold read? at h
  split at h
  · obtain ⟨all, hall, hlength⟩ := Option.bind_eq_some_iff.1 h
    split at hlength
    · rename_i height
      cases hlength
      exact ⟨height, readSide?_lt hall⟩
    · cases hlength
  · simp only [Option.bind_eq_bind, Option.bind_eq_some_iff] at h
    obtain ⟨left, hleft, right, hright, hgroups⟩ := h
    split at hgroups
    · cases hgroups
    · rename_i hmissing
      cases hgroups
      constructor
      · simp only [List.length_append, List.length_replicate]
        omega
      · intro n hn
        simp only [List.mem_append, List.mem_replicate] at hn
        rcases hn with (hn | ⟨-, rfl⟩) | hn
        · exact readSide?_lt hleft n hn
        · decide
        · exact readSide?_lt hright n hn

end TorrentControl.Net.Ipv6

import TorrentControl.Text.Split

/-! # Cutting and joining

A text is its pieces with the separator between them, and pieces without the separator in them are cut
out again. -/

namespace TorrentControl.Text

variable {separator : Char} {cs piece : List Char} {pieces : List (List Char)}

theorem split_ne_nil (separator : Char) (cs : List Char) : split separator cs ≠ [] := by
  cases cs with
  | nil => exact List.cons_ne_nil _ _
  | cons c rest =>
    rw [split]
    split
    · exact List.cons_ne_nil _ _
    · split <;> exact List.cons_ne_nil _ _

theorem split_cons_self (separator : Char) (cs : List Char) :
    split separator (separator :: cs) = [] :: split separator cs := by
  rw [split]
  cases h : split separator cs with
  | nil => exact absurd h (split_ne_nil separator cs)
  | cons piece pieces => exact if_pos rfl

theorem split_cons_of_ne {c : Char} (hc : c ≠ separator) (h : split separator cs = piece :: pieces) :
    split separator (c :: cs) = (c :: piece) :: pieces := by
  rw [split, h]
  exact if_neg hc

theorem split_of_not_mem (h : separator ∉ cs) : split separator cs = [cs] := by
  induction cs with
  | nil => rfl
  | cons c cs ih =>
    rw [List.mem_cons, not_or] at h
    exact split_cons_of_ne (Ne.symm h.1) (ih h.2)

/-- At a separator the pieces of the two sides come together. -/
theorem split_append_separator (cs ds : List Char) :
    split separator (cs ++ separator :: ds) = split separator cs ++ split separator ds := by
  induction cs with
  | nil => exact split_cons_self separator ds
  | cons c cs ih =>
    by_cases hc : c = separator
    · subst hc
      rw [List.cons_append, split_cons_self, split_cons_self, ih, List.cons_append]
    · obtain ⟨piece, pieces, hsplit⟩ := List.exists_cons_of_ne_nil (split_ne_nil separator cs)
      rw [hsplit, List.cons_append] at ih
      rw [List.cons_append, split_cons_of_ne hc ih, split_cons_of_ne hc hsplit, List.cons_append]

theorem split_append (h : separator ∉ piece) (cs : List Char) :
    split separator (piece ++ separator :: cs) = piece :: split separator cs := by
  rw [split_append_separator, split_of_not_mem h, List.singleton_append]

theorem intercalate_cons {separator : Char} (piece : List Char) (h : pieces ≠ []) :
    [separator].intercalate (piece :: pieces) = piece ++ separator :: [separator].intercalate pieces := by
  cases pieces with
  | nil => exact absurd rfl h
  | cons other pieces => rw [List.intercalate_cons_cons, List.append_assoc, List.singleton_append]

/-- What is joined has the characters of the pieces and the separator. -/
theorem of_mem_intercalate {c : Char} (h : c ∈ [separator].intercalate pieces) :
    c = separator ∨ ∃ piece ∈ pieces, c ∈ piece := by
  induction pieces with
  | nil => exact nomatch h
  | cons piece pieces ih =>
    by_cases hpieces : pieces = []
    · subst hpieces
      rw [List.intercalate_singleton] at h
      exact .inr ⟨piece, .head _, h⟩
    · rw [intercalate_cons piece hpieces, List.mem_append, List.mem_cons] at h
      rcases h with h | h | h
      · exact .inr ⟨piece, .head _, h⟩
      · exact .inl h
      · exact (ih h).imp_right fun ⟨other, hother, hc⟩ => ⟨other, .tail _ hother, hc⟩

/-- **Pieces without the separator are cut out again.** -/
theorem split_intercalate_pieces (hne : pieces ≠ []) (h : ∀ piece ∈ pieces, separator ∉ piece) :
    split separator ([separator].intercalate pieces) = pieces := by
  induction pieces with
  | nil => exact absurd rfl hne
  | cons piece pieces ih =>
    obtain ⟨hpiece, hrest⟩ := List.forall_mem_cons.1 h
    by_cases hpieces : pieces = []
    · subst hpieces
      rw [List.intercalate_singleton, split_of_not_mem hpiece]
    · rw [intercalate_cons piece hpieces, split_append hpiece, ih hpieces hrest]

/-- **A text is its pieces with the separator between them.** -/
theorem intercalate_split (separator : Char) (cs : List Char) :
    [separator].intercalate (split separator cs) = cs := by
  induction cs with
  | nil => exact List.intercalate_singleton
  | cons c cs ih =>
    have hne := split_ne_nil separator cs
    by_cases hc : c = separator
    · subst hc
      rw [split_cons_self, intercalate_cons [] hne, ih]
      rfl
    · obtain ⟨piece, pieces, hsplit⟩ := List.exists_cons_of_ne_nil hne
      rw [split_cons_of_ne hc hsplit, ← ih, hsplit]
      cases pieces with
      | nil => rw [List.intercalate_singleton, List.intercalate_singleton]
      | cons other pieces => rw [List.intercalate_cons_cons, List.intercalate_cons_cons]; rfl

/-- The pieces have the characters of the text, without the separator. -/
theorem of_mem_split {c : Char} (h : piece ∈ split separator cs) (hc : c ∈ piece) :
    c ∈ cs ∧ c ≠ separator := by
  induction cs generalizing piece with
  | nil =>
    cases List.mem_singleton.1 h
    exact nomatch hc
  | cons first cs ih =>
    by_cases hfirst : first = separator
    · subst hfirst
      rw [split_cons_self] at h
      rcases List.mem_cons.1 h with rfl | h
      · exact nomatch hc
      · exact (ih h hc).imp_left (.tail _)
    · obtain ⟨start, pieces, hsplit⟩ := List.exists_cons_of_ne_nil (split_ne_nil separator cs)
      rw [split_cons_of_ne hfirst hsplit] at h
      rw [hsplit] at ih
      rcases List.mem_cons.1 h with rfl | h
      · rcases List.mem_cons.1 hc with rfl | hc
        · exact ⟨.head _, hfirst⟩
        · exact (ih (.head _) hc).imp_left (.tail _)
      · exact (ih (.tail _ h) hc).imp_left (.tail _)

end TorrentControl.Text

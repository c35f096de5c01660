/-! # Cutting texts at a separator -/

namespace TorrentControl.Text

/-- The pieces between the separators; there is one more of them than separators. -/
def split (separator : Char) : List Char → List (List Char)
  | [] => [[]]
  | c :: rest =>
    match split separator rest with
    | [] => [[c]]
    | piece :: pieces => if c = separator then [] :: piece :: pieces else (c :: piece) :: pieces

/-- The text before the first separator and, if there is one, the text after it. -/
def splitFirst (separator : Char) : List Char → List Char × Option (List Char)
  | [] => ([], none)
  | c :: rest =>
    if c = separator then ([], some rest)
    else
      let (before, after) := splitFirst separator rest
      (c :: before, after)

theorem splitFirst_length (separator : Char) (cs : List Char) :
    (splitFirst separator cs).1.length + ((splitFirst separator cs).2.getD []).length ≤ cs.length := by
  induction cs with
  | nil => simp [splitFirst]
  | cons c rest ih =>
    simp only [splitFirst]
    split
    · simp
    · simp only [List.length_cons]
      omega

theorem splitFirst_append {separator : Char} {before : List Char} (h : separator ∉ before)
    (after : List Char) :
    splitFirst separator (before ++ separator :: after) = (before, some after) := by
  induction before with
  | nil => simp [splitFirst]
  | cons c before ih =>
    rw [List.mem_cons, not_or] at h
    rw [List.cons_append, splitFirst, if_neg (Ne.symm h.1), ih h.2]

theorem splitFirst_of_not_mem {separator : Char} {cs : List Char} (h : separator ∉ cs) :
    splitFirst separator cs = (cs, none) := by
  induction cs with
  | nil => rfl
  | cons c cs ih =>
    rw [List.mem_cons, not_or] at h
    rw [splitFirst, if_neg (Ne.symm h.1), ih h.2]

/-- Every text is cut in one of the two ways. -/
theorem splitFirst_cases (separator : Char) (cs : List Char) :
    separator ∉ cs ∨ ∃ before after, cs = before ++ separator :: after ∧ separator ∉ before := by
  induction cs with
  | nil => exact .inl (by simp)
  | cons c cs ih =>
    by_cases hc : separator = c
    · exact .inr ⟨[], cs, by simp [hc], by simp⟩
    · rcases ih with h | ⟨before, after, rfl, h⟩
      · exact .inl (by simp [hc, h])
      · exact .inr ⟨c :: before, after, rfl, by simp [hc, h]⟩

end TorrentControl.Text

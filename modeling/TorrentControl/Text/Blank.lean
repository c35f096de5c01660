/-! # Blank characters and trimming

The blank characters are those with the Unicode property White_Space. Trimming removes them from
both ends of a text and leaves the inner ones alone. -/

namespace TorrentControl.Text

/-- The ranges of code points with the property White_Space, both ends included. -/
def blankRanges : List (Nat × Nat) :=
  [(0x09, 0x0D), (0x20, 0x20), (0x85, 0x85), (0xA0, 0xA0), (0x1680, 0x1680), (0x2000, 0x200A),
   (0x2028, 0x2029), (0x202F, 0x202F), (0x205F, 0x205F), (0x3000, 0x3000)]

def isBlank (c : Char) : Bool :=
  blankRanges.any fun range => range.1 ≤ c.toNat && c.toNat ≤ range.2

/-- Drops the longest final run of characters that satisfy `p`. -/
def dropEndWhile (p : Char → Bool) : List Char → List Char
  | [] => []
  | c :: cs =>
    match dropEndWhile p cs with
    | [] => if p c then [] else [c]
    | kept => c :: kept

def trimChars (cs : List Char) : List Char :=
  dropEndWhile isBlank (cs.dropWhile isBlank)

def trim (s : String) : String :=
  String.ofList (trimChars s.toList)

/-- A text without any character other than blanks, the empty text included. -/
def isBlankText (s : String) : Bool :=
  s.toList.all isBlank

/-! ## What trimming removes -/

theorem dropEndWhile_length_le (p : Char → Bool) :
    ∀ cs : List Char, (dropEndWhile p cs).length ≤ cs.length
  | [] => Nat.le_refl _
  | c :: cs => by
    have ih := dropEndWhile_length_le p cs
    simp only [dropEndWhile]
    split
    · split <;> simp
    · rename_i kept _
      simp only [List.length_cons]
      omega

theorem dropWhile_length_le (p : Char → Bool) :
    ∀ cs : List Char, (cs.dropWhile p).length ≤ cs.length
  | [] => Nat.le_refl _
  | c :: cs => by
    have ih := dropWhile_length_le p cs
    simp only [List.dropWhile_cons]
    split
    · simp only [List.length_cons]; omega
    · exact Nat.le_refl _

theorem trimChars_length_le (cs : List Char) : (trimChars cs).length ≤ cs.length :=
  Nat.le_trans (dropEndWhile_length_le _ _) (dropWhile_length_le _ _)

/-! ## What trimming keeps -/

theorem dropEndWhile_cons (p : Char → Bool) (c : Char) (cs : List Char) :
    dropEndWhile p (c :: cs) =
      if dropEndWhile p cs = [] then (if p c then [] else [c]) else c :: dropEndWhile p cs := by
  rw [dropEndWhile]
  split
  · rename_i h
    rw [if_pos h]
  · rename_i h
    rw [if_neg h]

theorem dropEndWhile_of_all {p : Char → Bool} {cs : List Char} (h : ∀ c ∈ cs, p c = true) :
    dropEndWhile p cs = [] := by
  induction cs with
  | nil => rfl
  | cons c cs ih =>
    rw [dropEndWhile_cons, if_pos (ih fun d hd => h d (.tail _ hd)), if_pos (h c (.head _))]

/-- Trimming does not go beyond a character that stays. -/
theorem dropEndWhile_append_cons {p : Char → Bool} (before : List Char) {c : Char}
    (hc : p c = false) (after : List Char) :
    dropEndWhile p (before ++ c :: after) = before ++ c :: dropEndWhile p after := by
  induction before with
  | nil =>
    simp only [List.nil_append, dropEndWhile_cons, hc]
    split
    · rename_i h
      rw [h]
      rfl
    · rfl
  | cons b before ih => rw [List.cons_append, dropEndWhile_cons, ih, if_neg (by simp)]; rfl

theorem mem_of_mem_dropEndWhile {p : Char → Bool} {c : Char} {cs : List Char}
    (h : c ∈ dropEndWhile p cs) : c ∈ cs := by
  induction cs with
  | nil => exact h
  | cons d cs ih =>
    rw [dropEndWhile_cons] at h
    split at h
    · split at h
      · cases h
      · exact List.mem_singleton.1 h ▸ .head _
    · rcases List.mem_cons.1 h with rfl | h
      · exact .head _
      · exact .tail _ (ih h)

theorem dropEndWhile_idem (p : Char → Bool) (cs : List Char) :
    dropEndWhile p (dropEndWhile p cs) = dropEndWhile p cs := by
  induction cs with
  | nil => rfl
  | cons c cs ih =>
    rw [dropEndWhile_cons]
    split
    · split
      · rfl
      · rename_i hc
        simp [dropEndWhile, hc]
    · rename_i h
      rw [dropEndWhile_cons, ih, if_neg h]

theorem dropEndWhile_cons_of_neg {p : Char → Bool} {c : Char} (hc : p c = false) (cs : List Char) :
    dropEndWhile p (c :: cs) = c :: dropEndWhile p cs :=
  dropEndWhile_append_cons [] hc cs

theorem trimChars_cons_of_visible {c : Char} (hc : isBlank c = false) (cs : List Char) :
    trimChars (c :: cs) = c :: dropEndWhile isBlank cs := by
  rw [trimChars, List.dropWhile_cons_of_neg (by rw [hc]; decide), dropEndWhile_cons_of_neg hc]

theorem mem_dropEndWhile {p : Char → Bool} {c : Char} {cs : List Char} (h : c ∈ cs)
    (hc : p c = false) : c ∈ dropEndWhile p cs := by
  obtain ⟨before, after, rfl⟩ := List.append_of_mem h
  rw [dropEndWhile_append_cons before hc]
  simp

theorem trimChars_of_all {cs : List Char} (h : ∀ c ∈ cs, isBlank c = true) : trimChars cs = [] := by
  rw [trimChars, dropEndWhile_of_all fun c hc => h c ((List.dropWhile_suffix _).subset hc)]

theorem trimChars_dropWhile (cs : List Char) : trimChars (cs.dropWhile isBlank) = trimChars cs := by
  induction cs with
  | nil => rfl
  | cons c cs ih =>
    by_cases hc : isBlank c = true
    · rw [List.dropWhile_cons_of_pos hc, ih, trimChars, trimChars, List.dropWhile_cons_of_pos hc]
    · rw [List.dropWhile_cons_of_neg hc]

theorem mem_of_mem_trimChars {c : Char} {cs : List Char} (h : c ∈ trimChars cs) : c ∈ cs :=
  (List.dropWhile_suffix _).subset (mem_of_mem_dropEndWhile h)

/-- Trimming goes up to a character that stays, from either side. -/
theorem trimChars_append_cons (before : List Char) {c : Char} (hc : isBlank c = false)
    (after : List Char) : trimChars (before ++ c :: after) =
      before.dropWhile isBlank ++ c :: dropEndWhile isBlank after := by
  rw [trimChars, List.dropWhile_append]
  split
  · rename_i h
    rw [List.dropWhile_cons_of_neg (by rw [hc]; decide), dropEndWhile_cons_of_neg hc,
      List.isEmpty_iff.1 h]
    rfl
  · exact dropEndWhile_append_cons _ hc after

theorem mem_trimChars {c : Char} {cs : List Char} (h : c ∈ cs) (hc : isBlank c = false) :
    c ∈ trimChars cs := by
  obtain ⟨before, after, rfl⟩ := List.append_of_mem h
  rw [trimChars_append_cons before hc]
  simp

theorem trimChars_idem (cs : List Char) : trimChars (trimChars cs) = trimChars cs := by
  rw [← trimChars_dropWhile cs]
  cases h : cs.dropWhile isBlank with
  | nil => rfl
  | cons c rest =>
    have hc : isBlank c = false := by
      have := List.head?_dropWhile_not isBlank cs
      rw [h] at this
      simpa using this
    rw [trimChars_cons_of_visible hc, trimChars_cons_of_visible hc, dropEndWhile_idem]

theorem trimChars_of_none {cs : List Char} (h : ∀ c ∈ cs, isBlank c = false) :
    trimChars cs = cs := by
  have kept : ∀ ds : List Char, (∀ c ∈ ds, isBlank c = false) → dropEndWhile isBlank ds = ds := by
    intro ds hds
    induction ds with
    | nil => rfl
    | cons d ds ih =>
      rw [dropEndWhile_cons_of_neg (hds d (.head _)), ih fun c hc => hds c (.tail _ hc)]
  cases cs with
  | nil => rfl
  | cons c cs =>
    rw [trimChars_cons_of_visible (h c (.head _)), kept _ fun d hd => h d (.tail _ hd)]

end TorrentControl.Text

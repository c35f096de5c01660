import TorrentControl.Proofs.Scripts

/-! # Scripts in sequence

Where a text is accepted, the cut has come to its end with nothing open. So a semicolon behind it ends
a statement, and the cut goes on as on a text of its own: two scripts with a semicolon between them
are the statements of the one and then those of the other. -/

namespace TorrentControl

namespace Script

/-! ## One character -/

/-- What the cut does with a character, whatever comes behind it. -/
inductive Step (depth : Nat) (mode : Mode) (c : Char) : Prop where
  | takes (depth' : Nat) (mode' : Mode) (h : Passes depth mode [c] depth' mode')
  | refuses (fault : ParseFault) (h : ∀ rest, cut depth mode (c :: rest) = .error fault)
  | ends (h : ∀ rest, cut depth mode (c :: rest) = ([] :: ·) <$> cut 0 .plain rest)

theorem step (depth : Nat) (mode : Mode) (c : Char) : Step depth mode c := by
  cases mode with
  | escaped => exact .takes depth .quoted fun _ => rfl
  | quoted => exact .takes depth _ fun _ => rfl
  | plain =>
    by_cases hquote : c = '"'
    · subst hquote
      exact .takes depth .quoted fun _ => rfl
    by_cases hopen : c = '\x7b'
    · subst hopen
      exact .takes (depth + 1) .plain fun _ => rfl
    by_cases hclose : c = '\x7d'
    · subst hclose
      cases depth with
      | zero => exact .refuses .unbalancedScript fun _ => rfl
      | succ outer => exact .takes outer .plain fun _ => rfl
    by_cases hend : c = ';' ∧ depth = 0
    · obtain ⟨rfl, rfl⟩ := hend
      exact .ends fun _ => rfl
    · refine .takes depth .plain fun _ => ?_
      simp only [List.singleton_append, cut, hquote, hopen, hclose, hend, if_false]
      rfl

/-! ## A semicolon behind an accepted text -/

theorem attach_append (c : Char) {pieces : List (List Char)} (h : pieces ≠ [])
    (others : List (List Char)) : attach c (pieces ++ others) = attach c pieces ++ others := by
  cases pieces with
  | nil => exact (h rfl).elim
  | cons piece rest => rfl

theorem attach_ne_nil (c : Char) (pieces : List (List Char)) : attach c pieces ≠ [] := by
  cases pieces <;> exact List.cons_ne_nil _ _

theorem cut_nil_eq_ok_iff {depth : Nat} {mode : Mode} {pieces : List (List Char)} :
    cut depth mode [] = .ok pieces ↔ mode = .plain ∧ depth = 0 ∧ pieces = [[]] := by
  rw [cut]
  split
  · rename_i hmode
    exact iff_of_false (by intro h; cases h) fun h => hmode h.1
  · rename_i hmode
    split
    · rename_i hdepth
      exact iff_of_false (by intro h; cases h) fun h => hdepth h.2.1
    · rename_i hdepth
      exact ⟨fun h => ⟨not_not.1 hmode, not_not.1 hdepth, (Except.ok.inj h).symm⟩,
        fun h => congrArg Except.ok h.2.2.symm⟩

theorem map_eq_ok_iff {α β : Type} {f : α → β} {x : Except ParseFault α} {b : β} :
    f <$> x = .ok b ↔ ∃ a, x = .ok a ∧ f a = b := by
  cases x with
  | error fault => exact ⟨nofun, nofun⟩
  | ok a => exact ⟨fun h => ⟨a, rfl, Except.ok.inj h⟩, fun ⟨_, rfl, h⟩ => congrArg Except.ok h⟩

/-- A text has at least one piece. -/
theorem cut_ne_nil {cs : List Char} {depth : Nat} {mode : Mode} {pieces : List (List Char)}
    (h : cut depth mode cs = .ok pieces) : pieces ≠ [] := by
  cases cs with
  | nil =>
    obtain ⟨-, -, rfl⟩ := cut_nil_eq_ok_iff.1 h
    exact List.cons_ne_nil _ _
  | cons c cs =>
    cases step depth mode c with
    | takes depth' mode' hpasses =>
      obtain ⟨rest, -, rfl⟩ := map_eq_ok_iff.1 ((hpasses cs).symm.trans h)
      exact attach_ne_nil c rest
    | refuses fault hrefuses => cases (hrefuses cs).symm.trans h
    | ends hends =>
      obtain ⟨rest, -, rfl⟩ := map_eq_ok_iff.1 ((hends cs).symm.trans h)
      exact List.cons_ne_nil _ _

/-- **Behind an accepted text a semicolon ends a statement**, whatever was open where the text
begins. -/
theorem cut_join {as bs : List Char} {before after : List (List Char)}
    (hafter : cut 0 .plain bs = .ok after) : ∀ {depth : Nat} {mode : Mode}
    (_ : cut depth mode as = .ok before), cut depth mode (as ++ ';' :: bs) = .ok (before ++ after) := by
  induction as generalizing before with
  | nil =>
    intro depth mode hbefore
    obtain ⟨rfl, rfl, rfl⟩ := cut_nil_eq_ok_iff.1 hbefore
    exact congrArg (([] :: ·) <$> ·) hafter
  | cons c as ih =>
    intro depth mode hbefore
    cases step depth mode c with
    | takes depth' mode' hpasses =>
      obtain ⟨rest, hrest, rfl⟩ := map_eq_ok_iff.1 ((hpasses as).symm.trans hbefore)
      calc cut depth mode (c :: (as ++ ';' :: bs))
          = attach c <$> cut depth' mode' (as ++ ';' :: bs) := hpasses _
        _ = attach c <$> .ok (rest ++ after) := congrArg (attach c <$> ·) (ih hrest)
        _ = .ok (attach c rest ++ after) :=
            congrArg Except.ok (attach_append c (cut_ne_nil hrest) after)
    | refuses fault hrefuses => cases (hrefuses as).symm.trans hbefore
    | ends hends =>
      obtain ⟨rest, hrest, rfl⟩ := map_eq_ok_iff.1 ((hends as).symm.trans hbefore)
      exact (hends _).trans (congrArg (([] :: ·) <$> ·) (ih hrest))

theorem split_join {a b : String} {as bs : List String} (ha : split a = .ok as)
    (hb : split b = .ok bs) : split (a ++ ";" ++ b) = .ok (as ++ bs) := by
  obtain ⟨before, hbefore, rfl⟩ := map_eq_ok_iff.1 ha
  obtain ⟨after, hafter, rfl⟩ := map_eq_ok_iff.1 hb
  have htext : (a ++ ";" ++ b).toList = a.toList ++ ';' :: b.toList := by
    simp [String.toList_append]
  rw [split, htext, cut_join hafter hbefore]
  exact congrArg Except.ok (List.map_append ..)

/-! ## Statements are trimmed -/

theorem isBlankText_trim {text : String} :
    Text.isBlankText (Text.trim text) = true ↔ Text.trim text = "" := by
  constructor
  · intro hblank
    have hall : ∀ c ∈ Text.trimChars text.toList, Text.isBlank c = true := by
      simpa [Text.isBlankText, Text.trim] using hblank
    have hnil : Text.trimChars text.toList = [] := by
      rw [← Text.trimChars_idem, Text.trimChars_of_all hall]
    rw [Text.trim, hnil]
  · intro hempty
    rw [hempty]
    rfl

/-- The blank statements of a script are the empty ones. -/
theorem blank_iff_empty {script : String} {statements : List String}
    (h : split script = .ok statements) {text : String} (htext : text ∈ statements) :
    Text.isBlankText text = true ↔ text = "" := by
  obtain ⟨pieces, -, rfl⟩ := map_eq_ok_iff.1 h
  obtain ⟨piece, -, rfl⟩ := List.mem_map.1 htext
  have hblank := @isBlankText_trim (String.ofList piece)
  rwa [Text.trim, String.toList_ofList] at hblank

theorem filter_visible_eq_nil_iff {script : String} {statements : List String}
    (h : split script = .ok statements) :
    (statements.filter fun text => !Text.isBlankText text) = [] ↔ ∀ text ∈ statements, text = "" := by
  simp only [List.filter_eq_nil_iff, Bool.not_eq_true', Bool.not_eq_false]
  exact forall₂_congr fun text htext => blank_iff_empty h htext

end Script

/-! ## Runs in sequence -/

/-- A loop that does not look at what came before it answers that only if it makes no pass. -/
theorem foldlM_from {m : Type → Type} [Monad m] [LawfulMonad m] {α β : Type} (f : α → m β)
    (l : List α) (v b : β) : l.foldlM (fun _ a => f a) v =
      (do let w ← l.foldlM (fun _ a => f a) b; return if l = [] then v else w) := by
  cases l with
  | nil => simp
  | cons a l => simp

/-- **Two scripts with a semicolon between them are run one after the other.** Their statements are
those of the first script and then those of the second one; the value is that of the second script,
or that of the first one if all statements of the second are empty. -/
theorem Script.runs_in_sequence {a b : String} {as bs : List String} (ha : split a = .ok as)
    (hb : split b = .ok bs) :
    split (a ++ ";" ++ b) = .ok (as ++ bs) ∧
      ∀ (e : Engine) (target : Target) (hops left : Nat),
        e.run ((Job.script target (a ++ ";" ++ b)).run hops left) = e.run (do
          let v ← (Job.script target a).run hops left
          let w ← (Job.script target b).run hops left
          return if ∀ text ∈ bs, text = "" then v else w) := by
  refine ⟨split_join ha hb, fun e target hops left => ?_⟩
  cases left with
  | zero => rfl
  | succ left =>
    rw [Task.run_visible (split_join ha hb), List.filter_append, List.foldlM_append,
      Engine.run_bind, Engine.run_bind, Task.run_visible ha]
    rcases e.run (List.foldlM _ _ _) with ⟨halt | v, t⟩
    · rfl
    · dsimp only
      rw [foldlM_from _ _ v .empty, Engine.run_bind, Engine.run_bind, Task.run_visible hb]
      simp only [filter_visible_eq_nil_iff hb]

/-- A script that prints, and one of two empty statements behind it. -/
theorem Script.prints_before_empty_statements :
    split "print=hi; ; " = .ok ["print=hi", "", ""] ∧
      Engine.sample.executeScript .generic "print=hi; ; " =
        Engine.sample.executeScript .generic "print=hi" := by
  have hfirst : split "print=hi" = .ok ["print=hi"] := rfl
  have hsecond : split " ; " = .ok ["", ""] := rfl
  have hsequence := runs_in_sequence hfirst hsecond
  have hparse : Statement.parse "print=hi" = .ok ⟨"print", .text "hi"⟩ :=
    Statement.parse_printing ⟨['h', 'i'], List.all_eq_true.1 rfl, .cons rfl⟩
      ⟨'h', by decide, by decide⟩
  have hprints : Engine.sample.run ((Job.script .generic "print=hi").run hopLimit scriptLimit) =
      (.ok .empty, { Engine.sample with messages := Engine.sample.messages.push "hi" }) := by
    have hvisible : ∀ text ∈ ["print=hi"], Text.isBlankText text = false := by decide
    rw [scriptLimit, Task.run_script rfl hvisible, List.foldlM_cons,
      Engine.run_bind_ok _ (Task.run_printing hparse Engine.sample_aim_print _ _)]
    rfl
  refine ⟨hsequence.1, (hsequence.2 Engine.sample .generic hopLimit scriptLimit).trans ?_⟩
  rw [Engine.run_bind_ok _ hprints]
  exact hprints.symm

end TorrentControl

import TorrentControl.KeyMap

/-! # Ordered maps

The operations on maps keep the order of the keys. In an ordered map looking a key up finds the one
entry that has it, so ordered maps with the same look-ups are the same list. -/

namespace TorrentControl.KeyMap

variable {α β : Type} {m n : KeyMap α}

/-! ## Order -/

theorem ordered_nil : Ordered ([] : KeyMap α) :=
  List.Pairwise.nil

theorem ordered_cons {entry : String × α} :
    Ordered (entry :: m) ↔ (∀ other ∈ m, entry.1 < other.1) ∧ Ordered m := by
  simp only [Ordered, List.map_cons, List.pairwise_cons, List.forall_mem_map]

theorem Ordered.pairwise (h : Ordered m) : m.Pairwise fun entry other => entry.1 < other.1 :=
  List.pairwise_map.1 h

theorem Ordered.filter (h : Ordered m) (p : String × α → Bool) : Ordered (m.filter p) :=
  h.sublist ((List.filter_sublist (p := p)).map _)

theorem Ordered.erase (h : Ordered m) (key : String) : Ordered (erase m key) :=
  h.filter _

theorem Ordered.map (h : Ordered m) (f : String × α → β) :
    Ordered (m.map fun entry => (entry.1, f entry)) := by
  rw [Ordered, List.map_map]
  exact h

theorem mem_insert {key : String} {value : α} {entry : String × α}
    (h : entry ∈ insert m key value) : entry = (key, value) ∨ entry ∈ m := by
  induction m with
  | nil => exact .inl (List.mem_singleton.1 h)
  | cons first rest ih =>
    simp only [insert] at h
    split at h
    · exact List.mem_cons.1 h
    · split at h
      · rcases List.mem_cons.1 h with h | h
        · exact .inl h
        · exact .inr (.tail _ h)
      · rcases List.mem_cons.1 h with h | h
        · exact .inr (h ▸ .head _)
        · exact (ih h).imp_right (.tail _)

theorem Ordered.insert (h : Ordered m) (key : String) (value : α) :
    Ordered (insert m key value) := by
  induction m with
  | nil => exact List.pairwise_singleton _ _
  | cons first rest ih =>
    obtain ⟨hfirst, hrest⟩ := ordered_cons.1 h
    simp only [KeyMap.insert]
    split
    · rename_i hlt
      refine ordered_cons.2 ⟨fun other hother => ?_, h⟩
      rcases List.mem_cons.1 hother with rfl | hother
      · exact hlt
      · exact String.lt_trans hlt (hfirst other hother)
    · rename_i hle
      split
      · rename_i heq
        exact ordered_cons.2 ⟨fun other hother => heq ▸ hfirst other hother, hrest⟩
      · rename_i hne
        refine ordered_cons.2 ⟨fun other hother => ?_, ih hrest⟩
        rcases mem_insert hother with rfl | hother
        · exact String.not_le.1 fun hge => hne (String.le_antisymm hge (String.not_lt.1 hle))
        · exact hfirst other hother

/-! ## From lists -/

theorem insert_append {key : String} {value : α} (h : ∀ entry ∈ m, entry.1 < key) :
    insert m key value = m ++ [(key, value)] := by
  induction m with
  | nil => rfl
  | cons first rest ih =>
    have hfirst : first.1 < key := h first (.head _)
    have hrest := ih fun entry hentry => h entry (.tail _ hentry)
    rw [insert, if_neg (String.lt_asymm hfirst), if_neg (String.ne_of_lt hfirst).symm, hrest]
    rfl

theorem ordered_ofList (entries : List (String × α)) : Ordered (ofList entries) := by
  have hfold : ∀ done : KeyMap α, Ordered done →
      Ordered (entries.foldl (fun m entry => KeyMap.insert m entry.1 entry.2) done) := by
    induction entries with
    | nil => exact fun _ h => h
    | cons entry rest ih => exact fun done h => ih _ (h.insert entry.1 entry.2)
  exact hfold [] ordered_nil

/-- Entries that are in order already are the map of themselves. -/
theorem Ordered.ofList_eq (h : Ordered m) : ofList m = m := by
  have happend : ∀ (done todo : KeyMap α), Ordered (done ++ todo) →
      todo.foldl (fun m entry => KeyMap.insert m entry.1 entry.2) done = done ++ todo := by
    intro done todo
    induction todo generalizing done with
    | nil => intro _; rw [List.foldl_nil, List.append_nil]
    | cons entry rest ih =>
      intro hordered
      have hlast : ∀ other ∈ done, other.1 < entry.1 := fun other hother =>
        (List.pairwise_append.1 hordered.pairwise).2.2 other hother entry (.head _)
      rw [List.foldl_cons, insert_append hlast, ih _ (by rwa [List.append_assoc]),
        List.append_assoc]
      rfl
  exact happend [] m h

/-! ## Looking up -/

theorem Ordered.find?_eq_some_iff (h : Ordered m) {key : String} {value : α} :
    find? m key = some value ↔ (key, value) ∈ m := by
  induction m with
  | nil => simp [find?]
  | cons first rest ih =>
    obtain ⟨hfirst, hrest⟩ := ordered_cons.1 h
    rw [find?_cons, List.mem_cons]
    split
    · rename_i hkey
      subst hkey
      have hgone : (first.1, value) ∉ rest := fun hmem =>
        String.lt_irrefl first.1 (hfirst (first.1, value) hmem)
      simp only [Option.some.injEq, hgone, or_false]
      exact ⟨fun hv => hv ▸ rfl, fun hv => congrArg Prod.snd hv.symm⟩
    · rename_i hkey
      have hne : (key, value) ≠ first := fun heq => hkey (heq ▸ rfl)
      rw [ih hrest]
      simp only [hne, false_or]

/-- **Ordered maps with the same look-ups are the same.** -/
theorem Ordered.ext (hm : Ordered m) (hn : Ordered n) (h : ∀ key, find? m key = find? n key) :
    m = n := by
  have hnodup {l : KeyMap α} (hl : Ordered l) : l.Nodup :=
    hl.pairwise.imp fun hlt heq => String.ne_of_lt hlt (congrArg Prod.fst heq)
  have hmem (entry : String × α) : entry ∈ m ↔ entry ∈ n := by
    rw [← hm.find?_eq_some_iff, ← hn.find?_eq_some_iff, h]
  have hperm : m.Perm n := (List.perm_ext_iff_of_nodup (hnodup hm) (hnodup hn)).2 hmem
  exact hperm.eq_of_pairwise (fun _ _ _ _ hab hba => (String.lt_asymm hab hba).elim)
    hm.pairwise hn.pairwise

/-- Putting the value under a key that is there already changes nothing. -/
theorem Ordered.insert_self (h : Ordered m) {key : String} {value : α}
    (hvalue : find? m key = some value) : KeyMap.insert m key value = m := by
  refine (h.insert key value).ext h fun other => ?_
  rw [find?_insert]
  split
  · rename_i heq
    rw [← heq, hvalue]
  · rfl

theorem Ordered.find?_filter (h : Ordered m) (p : α → Bool) (key : String) :
    find? (m.filter fun entry => p entry.2) key = (find? m key).filter p := by
  refine Option.ext fun value => ?_
  rw [(h.filter _).find?_eq_some_iff, List.mem_filter, Option.filter_eq_some_iff,
    h.find?_eq_some_iff]

theorem find?_map (m : KeyMap α) (f : α → β) (key : String) :
    find? (m.map fun entry => (entry.1, f entry.2)) key = (find? m key).map f := by
  induction m with
  | nil => rfl
  | cons first rest ih =>
    rw [List.map_cons, find?_cons, find?_cons, ih]
    split <;> rfl

theorem find?_append (m n : List (String × α)) (key : String) :
    find? (m ++ n) key = (find? m key).or (find? n key) := by
  simp [find?, List.find?_append, Option.map_or]

/-- The last of several entries with one key counts. -/
theorem find?_ofList (entries : List (String × α)) (key : String) :
    find? (ofList entries) key = find? entries.reverse key := by
  have hfold : ∀ done : KeyMap α,
      find? (entries.foldl (fun m entry => KeyMap.insert m entry.1 entry.2) done) key =
        (find? entries.reverse key).or (find? done key) := by
    induction entries with
    | nil => exact fun _ => rfl
    | cons entry rest ih =>
      intro done
      rw [List.foldl_cons, ih, find?_insert, List.reverse_cons, find?_append, Option.or_assoc,
        find?_cons]
      split <;> rfl
  rw [ofList, hfold, show find? ([] : KeyMap α) key = none from rfl, Option.or_none]

theorem mem_keys {key : String} : key ∈ keys m ↔ (find? m key).isSome := by
  rw [← contains_iff_find?]
  simp [keys, contains]

end TorrentControl.KeyMap

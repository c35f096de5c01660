import Mathlib.Data.List.Nodup
import TorrentControl.Command.Builtin

/-! # Looking up after each change of a registry

What a key is bound to after an entry was inserted or erased, and in the registry that the built-in
commands make. -/

namespace TorrentControl

namespace Registry

variable {r t : Registry} {key : String} {entry : CommandEntry}

/-! ## One change -/

@[simp] theorem tell_entries (r : Registry) (notice : Notice) :
    (r.tell notice).entries = r.entries := by
  unfold tell
  split
  · split <;> rfl
  · rfl

/-- An entry goes under a free key only. -/
theorem insertEntry_ok (h : r.insertEntry key entry = .ok t) :
    r.find? key = none ∧
      t.entries = KeyMap.insert r.entries key entry := by
  unfold insertEntry at h
  split at h
  · cases h
  · rename_i free
    rw [contains, KeyMap.contains_iff_find?, Option.not_isSome_iff_eq_none] at free
    cases h
    refine ⟨free, ?_⟩
    split <;> simp

theorem insertEntry_of_free (h : r.find? key = none) (entry : CommandEntry) :
    ∃ t, r.insertEntry key entry = .ok t := by
  have free : r.contains key = false := by
    rw [contains, KeyMap.contains_iff_find?]
    exact congrArg Option.isSome h
  exact ⟨_, if_neg (by simp [free])⟩

theorem find?_insertEntry (h : r.insertEntry key entry = .ok t) (other : String) :
    t.find? other = if key = other then some entry else r.find? other := by
  rw [find?, (insertEntry_ok h).2, KeyMap.find?_insert]
  rfl

theorem find?_erase (r : Registry) (key other : String) :
    (r.erase key).2.find? other = if key = other then none else r.find? other := by
  unfold erase
  split
  · rename_i absent
    split
    · rename_i same
      exact same ▸ absent
    · rfl
  · simp only [find?]
    split <;> simp [KeyMap.find?_erase]

theorem insertAlias_ok {ownsKey : Bool} {source : String}
    (h : r.insertAlias key ownsKey source = .ok t) : ∃ entry, r.find? source = some entry ∧
      r.insertEntry key { entry with flags := { entry.flags with isShared := true, ownsKey } } =
        .ok t := by
  unfold insertAlias at h
  split at h
  · cases h
  · rename_i entry hsource
    exact ⟨entry, hsource, h⟩

/-! ## The built-in commands -/

/-- The entry was made for a built-in command. -/
structure Serves (entry : CommandEntry) (b : Builtin) : Prop where
  callable : entry.callable = b.callable
  isPublic : entry.isPublic = b.isPublic

/-- Registration goes on behind the first command, or stops there. -/
theorem withBuiltins_cons (r : Registry) (b : Builtin) (table : List Builtin) :
    r.withBuiltins (b :: table) =
      match r.insert b.key b.callable ⟨false, false, b.isPublic⟩ b.signature "" with
      | .ok t => t.withBuiltins table
      | .error _ => r := by
  simp only [withBuiltins, insertBuiltins]
  cases r.insert b.key b.callable ⟨false, false, b.isPublic⟩ b.signature "" <;> rfl

theorem find?_withBuiltins {table : List Builtin} {r : Registry}
    (h : (r.withBuiltins table).find? key = some entry) :
    r.find? key = some entry ∨ ∃ b ∈ table, b.key = key ∧ Serves entry b := by
  induction table generalizing r with
  | nil => exact .inl h
  | cons b table ih =>
    rw [withBuiltins_cons] at h
    split at h
    · rename_i t hinsert
      rcases ih h with h | ⟨c, hc, h⟩
      · rw [find?_insertEntry hinsert] at h
        split at h
        · rename_i same
          cases h
          exact .inr ⟨b, List.mem_cons_self, same, rfl, rfl⟩
        · exact .inl h
      · exact .inr ⟨c, List.mem_cons_of_mem b hc, h⟩
    · exact .inl h

/-- Where no key is there twice, every command of the table is registered. -/
theorem exists_withBuiltins {table : List Builtin} {r : Registry}
    (hnodup : (table.map Builtin.key).Nodup) (hfree : ∀ b ∈ table, r.find? b.key = none) :
    (∀ key entry, r.find? key = some entry → (r.withBuiltins table).find? key = some entry) ∧
      ∀ b ∈ table, ∃ entry, (r.withBuiltins table).find? b.key = some entry ∧
        Serves entry b := by
  induction table generalizing r with
  | nil => exact ⟨fun _ _ h => h, fun _ h => (List.not_mem_nil h).elim⟩
  | cons b table ih =>
    obtain ⟨hb, hnodup⟩ := List.nodup_cons.1 hnodup
    have hfirst := hfree b List.mem_cons_self
    obtain ⟨t, ht⟩ := insertEntry_of_free (r := { r with registrations := r.registrations + 1 })
      hfirst ⟨b.callable, r.registrations, ⟨false, false, b.isPublic⟩, b.signature, ""⟩
    have hinsert : r.insert b.key b.callable ⟨false, false, b.isPublic⟩ b.signature "" = .ok t := ht
    have hstill (c : Builtin) (hc : c ∈ table) : t.find? c.key = none := by
      rw [find?_insertEntry ht, if_neg]
      · exact hfree c (List.mem_cons_of_mem b hc)
      · exact fun same => hb (same ▸ List.mem_map_of_mem hc)
    obtain ⟨hkept, hrest⟩ := ih hnodup hstill
    simp only [withBuiltins_cons, hinsert]
    constructor
    · intro key entry h
      refine hkept key entry ?_
      rw [find?_insertEntry ht, if_neg]
      · exact h
      · rintro rfl
        rw [h] at hfirst
        cases hfirst
    · intro c hc
      rcases List.mem_cons.1 hc with rfl | hc
      · exact ⟨_, hkept _ _ (by rw [find?_insertEntry ht, if_pos rfl]), rfl, rfl⟩
      · exact hrest c hc

end Registry

/-- The bytes of a text as the digits of a number. -/
def keyCode (key : String) : Nat :=
  key.toByteArray.data.foldl (fun n byte => 256 * n + byte.toNat) 0

/-- No built-in command takes the key of another one. -/
theorem Builtin.keys_nodup : (Builtin.all.map Builtin.key).Nodup :=
  List.Nodup.of_map keyCode (by decide +kernel)

theorem Builtin.multicall_mem : published "d.multicall" (.generic .multicall) "A:s" ∈ all := by
  simp [all, sessionWide]

theorem Builtin.print_mem : hidden "print" (.generic .print) "i:s" ∈ all := by
  simp [all, sessionWide]

theorem Builtin.alias_mem : published "method.alias" (.generic .aliasMethod) "i:ss" ∈ all := by
  simp [all, sessionWide]

theorem Builtin.downloadList_mem :
    published "download_list" (.generic .downloadList) "A:" ∈ all := by
  simp [all, sessionWide]

namespace Registry

@[simp] theorem find?_empty (key : String) : empty.find? key = none := rfl

theorem find?_builtin {key : String} {entry : CommandEntry} (h : builtin.find? key = some entry) :
    ∃ b ∈ Builtin.all, b.key = key ∧ Serves entry b := by
  rcases find?_withBuiltins h with h | h
  · rw [find?_empty] at h
    cases h
  · exact h

theorem exists_builtin {b : Builtin} (h : b ∈ Builtin.all) :
    ∃ entry, builtin.find? b.key = some entry ∧ Serves entry b :=
  (exists_withBuiltins Builtin.keys_nodup fun _ _ => find?_empty _).2 b h

theorem exists_find?_builtin {key : String} {callable : Callable}
    (h : ∃ b ∈ Builtin.all, b.key = key ∧ b.callable = callable) :
    ∃ entry, builtin.find? key = some entry ∧ entry.callable = callable := by
  obtain ⟨b, hb, rfl, rfl⟩ := h
  obtain ⟨entry, hentry, hserves⟩ := exists_builtin hb
  exact ⟨entry, hentry, hserves.callable⟩

end Registry

end TorrentControl
